import Mathlib.Tactic.TypeStar
import Mathlib.Data.List.Basic

/-!
# Sequential objects

A sequential object answers one input after the other: `out` is the answer in a state, `next` the
state after it. It is what a server is compared with, input by input (`outputs_snoc`).
-/

namespace FrigateZmqDetector.Lib

structure Sequential (S I O : Type*) where
  next : S → I → S
  out : S → I → O

namespace Sequential

variable {S I O : Type*} (A : Sequential S I O)

/-- The state after the inputs. -/
def after (s : S) (inputs : List I) : S := inputs.foldl A.next s

/-- The answers to the inputs. -/
def outputs : S → List I → List O
  | _, [] => []
  | s, i :: inputs => A.out s i :: outputs (A.next s i) inputs

variable {A} {s : S} {i : I} {inputs : List I}

theorem after_snoc : A.after s (inputs ++ [i]) = A.next (A.after s inputs) i := by
  simp [after]

theorem outputs_snoc :
    A.outputs s (inputs ++ [i]) = A.outputs s inputs ++ [A.out (A.after s inputs) i] := by
  induction inputs generalizing s with
  | nil => rfl
  | cons j inputs ih => simp [outputs, ih, after]

end Sequential

end FrigateZmqDetector.Lib
