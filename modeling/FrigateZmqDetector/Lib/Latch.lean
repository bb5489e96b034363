import Mathlib.Logic.Basic

/-!
# A flag that is held

One flag shared by any number of parties, set by whoever takes it and cleared by whoever gives it
back. `Latched` is its meaning: the flag is set exactly while somebody holds it, and nobody else
does then. It is kept by the three things that can happen to it: `Latched.acquire` by somebody who
found it clear, `Latched.release` by its holder, and `Latched.keep` by everybody else.
-/

namespace FrigateZmqDetector.Lib

variable {ι : Type*} {flag : Bool} {holds holds' : ι → Prop} {i : ι}

/-- The flag says whether somebody holds it, and at most one party does. -/
structure Latched (flag : Bool) (holds : ι → Prop) : Prop where
  flag_iff : flag = true ↔ ∃ i, holds i
  unique : ∀ i j, holds i → holds j → i = j

namespace Latched

theorem clear (h : ∀ i, ¬ holds i) : Latched false holds := by
  refine ⟨⟨fun hf => absurd hf Bool.false_ne_true, fun hheld => ?_⟩, fun i _ hi _ => absurd hi (h i)⟩
  obtain ⟨i, hi⟩ := hheld
  exact absurd hi (h i)

theorem not_holds (h : Latched false holds) (i : ι) : ¬ holds i := by
  intro hi
  have hset : false = true := h.flag_iff.mpr ⟨i, hi⟩
  cases hset

theorem keep (h : Latched flag holds) (hsame : ∀ j, holds' j ↔ holds j) :
    Latched flag holds' := by
  have heq : holds' = holds := funext fun j => propext (hsame j)
  exact heq ▸ h

theorem acquire (h : Latched false holds) (hi : holds' i)
    (hne : ∀ j, j ≠ i → (holds' j ↔ holds j)) :
    Latched true holds' := by
  have honly : ∀ j, holds' j → j = i := by
    intro j hj
    by_cases hji : j = i
    · exact hji
    · exact absurd ((hne j hji).mp hj) (h.not_holds j)
  exact ⟨⟨fun _ => ⟨i, hi⟩, fun _ => rfl⟩, fun j k hj hk => (honly j hj).trans (honly k hk).symm⟩

theorem release (h : Latched flag holds) (hi : holds i) (hi' : ¬ holds' i)
    (hne : ∀ j, j ≠ i → (holds' j ↔ holds j)) : Latched false holds' := by
  refine clear fun j hj => ?_
  by_cases hji : j = i
  · exact hi' (hji ▸ hj)
  · exact hji (h.unique j i ((hne j hji).mp hj) hi)

end Latched

end FrigateZmqDetector.Lib
