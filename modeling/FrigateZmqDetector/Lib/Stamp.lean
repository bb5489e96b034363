import Mathlib.Data.Nat.Notation
import Mathlib.Order.Basic

/-!
# Optional clock readings in one word

A reading `t` is kept as `t + 1` and no reading as `0`, so that a reading of `0` is not taken for
"not set". The lemmas say how the word behaves under the comparisons and under the truncated age
in whole seconds, `(n - word) / 1000` with a difference that stops at zero.
-/

namespace FrigateZmqDetector.Lib

/-- The word for an optional reading. -/
def stamp : Option ℕ → ℕ
  | none => 0
  | some t => t + 1

@[simp] theorem stamp_none : stamp none = 0 := rfl

@[simp] theorem stamp_some (t : ℕ) : stamp (some t) = t + 1 := rfl

@[simp] theorem stamp_eq_zero {o : Option ℕ} : stamp o = 0 ↔ o = none := by
  cases o <;> simp [stamp]

@[simp] theorem stamp_pos {o : Option ℕ} : 0 < stamp o ↔ ∃ t, o = some t := by
  cases o <;> simp [stamp]

/-- A later word means a reading, and a later one than any reading behind the earlier word. -/
theorem stamp_lt_stamp {o o' : Option ℕ} :
    stamp o < stamp o' ↔ ∃ t', o' = some t' ∧ ∀ t, o = some t → t < t' := by
  cases o <;> cases o' <;> simp [stamp]

/-- The age of a word in whole seconds, truncated. -/
def ageSecs (n word : ℕ) : ℕ := (n - word) / 1000

/-- **The age in whole seconds has reached `N` exactly when `N` seconds have passed since the
stamp.** -/
theorem le_ageSecs {N n w : ℕ} (hN : 0 < N) : N ≤ ageSecs n w ↔ w + 1000 * N ≤ n := by
  unfold ageSecs
  rw [Nat.le_div_iff_mul_le (by decide)]
  omega

end FrigateZmqDetector.Lib
