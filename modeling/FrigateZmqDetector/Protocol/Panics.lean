import FrigateZmqDetector.Protocol.FirstModel

/-!
# Models that panic the worker

Post-processing checks that a model has its four output tensors before it indexes them. The input
side has no such check: `run` and `warmup` index the first input tensor of a model that may have
none. `never_panics_iff` says that this is the only way a loaded model or a request can panic the
worker.
-/

namespace FrigateZmqDetector.Protocol

open Lib Lib.Eff Tflite

variable {W : Type} {json : SerdeJson} {lib : EdgefirstTflite W} {interp : Interpreter}
  {w w' : W} {s : TfliteState W} {count : Interpreter → ℕ}

/-- `inputs_mut` lists as many tensors as the interpreter has inputs. -/
def CountsInputs (lib : EdgefirstTflite W) (count : Interpreter → ℕ) : Prop :=
  ∀ interp w inputs w', lib.inputsMut interp w = (.ok inputs, w') → inputs.length = count interp

/-- `inputs_mut` reports an error. -/
def InputsFail (lib : EdgefirstTflite W) (interp : Interpreter) (w : W) : Prop :=
  ∃ e w', lib.inputsMut interp w = (.error e, w')

/-- **Neither the loaded model nor a request can panic the worker**: inference returns 480 bytes or
an error, warmup returns, and every message is answered. -/
structure NeverPanics (json : SerdeJson) (lib : EdgefirstTflite W) (s : TfliteState W) : Prop where
  run : ∀ input, ((TfliteManager.run lib input).run s).1.Ensures fun bytes => bytes.length = 480
  warmup : ((TfliteManager.warmup lib).run s).1.Ensures fun _ => True
  message : ∀ msg, ((dispatch json (tfliteBackend lib) msg).run s).1.isOk = true

/-! ### One inference, and one warmup -/

theorem hasInput_of_count (h : CountsInputs lib count) (hpos : 0 < count interp) :
    HasInput lib interp := by
  intro w inputs w' hw
  rw [← h interp w inputs w' hw] at hpos
  exact List.length_pos_iff.mp hpos

theorem warmupInference_ensures (h : HasInput lib interp) :
    Ensures (warmupInference lib interp) fun _ => True := by
  refine (ensures_inputs h _).bind fun inputs hlen => (ensures_index hlen).bind fun input _ => ?_
  refine (ensures_inputs h _).bind fun inputs hlen => (ensures_index hlen).bind fun input _ => ?_
  exact (ensures_native _ _).bind fun _ _ => ensures_native _ _

section Safe

variable (h : CountsInputs lib count) (hinput : 0 < count interp ∨ InputsFail lib interp w)
include h hinput

theorem runInference_safe (input : Bytes) :
    ((runInference lib interp input).run w).1.Ensures fun bytes => bytes.length = 480 := by
  rcases hinput with hpos | ⟨e, w', hfail⟩
  · exact runInference_ensures (hasInput_of_count h hpos) input w
  · rw [runInference, run_bind_of_err (run_native_of_error hfail _)]
    exact trivial

theorem warmupInference_safe : ((warmupInference lib interp).run w).1.Ensures fun _ => True := by
  rcases hinput with hpos | ⟨e, w', hfail⟩
  · exact warmupInference_ensures (hasInput_of_count h hpos) w
  · rw [warmupInference, run_bind_of_err (run_native_of_error hfail _)]
    exact trivial

end Safe

/-! ### Messages -/

/-- A message can only panic in the run of its inference. -/
theorem dispatch_isOk (h : ∀ input, ((TfliteManager.run lib input).run s).1 ≠ .panic)
    (msg : ZmqMessage) : ((dispatch json (tfliteBackend lib) msg).run s).1.isOk = true := by
  cases hclass : classifyMessage json msg with
  | true =>
    rw [dispatch, if_pos hclass]
    have hcases := handleModelRequest_cases (tfliteBackend lib) s hclass
    rcases hrun : (handleModelRequest json (tfliteBackend lib) msg).run s with ⟨out, s'⟩
    rw [hrun] at hcases
    cases hcases with
    | query | same | different | cached =>
      rw [run_orElse_of_ok hrun]
      rfl
    | refused =>
      rw [run_orElse_of_err hrun]
      rfl
    | panicked _ _ hc => exact absurd hc cacheModel_ne_panic
  | false =>
    rw [dispatch_inference hclass]
    cases msg[1]? with
    | none => rfl
    | some input =>
      have hne : (((tfliteBackend lib).run input).run s).1 ≠ .panic := h input
      dsimp only
      split_ifs
      · rcases hrun : ((tfliteBackend lib).run input).run s with ⟨_ | _ | _, s'⟩
        · rfl
        · rfl
        · rw [hrun] at hne
          exact absurd rfl hne
      · rfl

/-- **When neither the loaded model nor a request can panic the worker**: exactly when the loaded
model has an input tensor, or its tensors cannot be listed. -/
theorem never_panics_iff (json : SerdeJson) (s : TfliteState W) (h : CountsInputs lib count) :
    NeverPanics json lib s ↔ ∀ interp, s.manager.interpreter = some interp →
      0 < count interp ∨ InputsFail lib interp s.native := by
  constructor
  · intro hnever interp hi
    rcases hw : lib.inputsMut interp s.native with ⟨e | inputs, w'⟩
    · exact Or.inr ⟨e, w', hw⟩
    · refine Or.inl (Nat.pos_of_ne_zero fun hzero => ?_)
      have hnil : inputs = [] := List.eq_nil_of_length_eq_zero ((h _ _ _ _ hw).trans hzero)
      subst hnil
      have hrun := hnever.run []
      rw [run_of_interpreter hi, runInference_panics hw] at hrun
      exact hrun
  · intro hinput
    have hrun : ∀ input,
        ((TfliteManager.run lib input).run s).1.Ensures fun bytes => bytes.length = 480 := by
      intro input
      cases hi : s.manager.interpreter with
      | none => exact run_ensures (fun interp hsome => by rw [hi] at hsome; cases hsome) input
      | some interp =>
        rw [run_of_interpreter hi]
        exact runInference_safe h (hinput interp hi) input
    refine ⟨hrun, ?_, dispatch_isOk fun input hpanic => ?_⟩
    · cases hi : s.manager.interpreter with
      | none =>
        unfold TfliteManager.warmup
        rw [run_bind_of_ok run_get, hi]
        exact trivial
      | some interp =>
        rw [warmup_of_interpreter hi]
        exact warmupInference_safe h (hinput interp hi)
    · have hsafe := hrun input
      rw [hpanic] at hsafe
      exact hsafe

/-- The small library's models have an input tensor. -/
theorem never_panics_small :
    NeverPanics transferJson smallTflite
      (handle transferJson smallTflite smallState [transferHeader "ssd", [1]]) := by
  have hcount : CountsInputs smallTflite fun _ => 1 := by
    intro interp w inputs w' hw
    cases hw
    rfl
  exact (never_panics_iff transferJson _ hcount).mpr fun interp hi => Or.inl Nat.one_pos

/-- The small library, with models that have no input tensors. -/
def noInputTflite : EdgefirstTflite Unit :=
  { smallTflite with inputsMut := fun _ w => (.ok [], w) }

/-- A model without inputs, transferred to a fresh worker, panics it at the next frame. -/
theorem no_input_panics :
    ¬ NeverPanics transferJson noInputTflite
      (handle transferJson noInputTflite smallState [transferHeader "ssd", [1]]) := by
  intro h
  exact absurd (h.message [[], [1, 2]]) (by decide)

end FrigateZmqDetector.Protocol
