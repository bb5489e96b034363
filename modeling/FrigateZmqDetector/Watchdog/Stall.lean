import FrigateZmqDetector.Watchdog.History

/-!
# A stalled worker is caught

The watchdog as it runs: the calls of the request loop with checks in between, all of which found
nothing so far. Such checks leave no trace (`exec_watching`), so the watchdog still holds what the
calls say, and the next check sees an open request, or a worker that has never succeeded, as soon
as it is `N` seconds and one millisecond old (`check_stalled`).
-/

namespace FrigateZmqDetector.Watchdog

open Lib HealthSnapshot

/-- A call of the request loop, or a whole check with its reading of the clock. -/
inductive WatchEvent where
  | call (c : Call)
  | check (n : ℕ)
  deriving DecidableEq, Repr

def WatchEvent.call? : WatchEvent → Option Call
  | .call c => some c
  | .check _ => none

/-- The watchdog in a worker that goes on: a check that returns a reason is not a step. -/
def watching : Machine ProgressWatchdog WatchEvent where
  step w
    | .call c => some (w.apply c)
    | .check n =>
      match w.check n with
      | (none, w') => some w'
      | (some _, _) => none

variable {w w' : ProgressWatchdog} {events : List WatchEvent} {N M L t n : ℕ}

/-- A check between the calls that finds nothing leaves the watchdog as it was. -/
theorem step_watching_check (h : watching.step w (.check n) = some w') : w' = w := by
  have hnone : (w.check n).1 = none ∧ (w.check n).2 = w' := by
    simp only [watching] at h
    split at h
    next hc => rw [hc]; exact ⟨rfl, Option.some.inj h⟩
    next => cases h
  rw [← hnone.2, ProgressWatchdog.check_snd_of_none hnone.1]

/-- **Only the calls leave a trace.** -/
theorem exec_watching (h : watching.exec w events = some w') :
    w' = w.replay (events.filterMap WatchEvent.call?) := by
  induction events generalizing w with
  | nil =>
    cases h
    rfl
  | cons e events ih =>
    obtain ⟨w₁, hstep, hrest⟩ := Machine.exec_cons_eq_some.mp h
    cases e with
    | call c =>
      cases hstep
      exact ih hrest
    | check n =>
      obtain rfl := step_watching_check hstep
      exact ih hrest

/-- **A stalled or never-successful worker is caught**, at most one millisecond late, whatever the
failures and the checks before. -/
theorem check_stalled (h : History) (hcalls : events.filterMap WatchEvent.call? = h.calls)
    (hrun : watching.exec (.new N M L) events = some w) (hN : 0 < N)
    (hcount : (starts h.calls).length < 2 ^ 64)
    (hstall : openStart h.calls = some t ∨ (oks h.calls = [] ∧ (starts h.calls).head? = some t))
    (hn : t + 1 + 1000 * N ≤ n) : (w.check n).1.isSome = true := by
  rw [exec_watching hrun, hcalls, check_replay, reason_isSome]
  rcases hstall with hopen | ⟨hok, hfirst⟩
  · exact Or.inr (Or.inr (Or.inr (inFlightStuck_summary.mpr ⟨hN, t, hopen, hn⟩)))
  · have hpos : 0 < (starts h.calls).length % 2 ^ 64 := by
      rw [Nat.mod_eq_of_lt hcount]
      exact List.length_pos_of_mem (List.mem_of_head? hfirst)
    exact Or.inr (Or.inl (noSuccess_summary.mpr ⟨⟨hN, hpos⟩, hok, t, hfirst, hn⟩))

/-- A request that is still open after two seconds, after a failure and two checks. -/
theorem check_stalled_open :
    let events : List WatchEvent := [.call (.requestStart 3), .check 4, .call (.responseErr 9),
      .call (.requestStart 10), .check 2000]
    ∃ w, watching.exec (.new 2 0 0) events = some w ∧ (w.check 2011).1.isSome = true := by
  intro events
  let h : History := ⟨[.requestStart 3, .responseErr 9, .requestStart 10], true, rfl, by decide⟩
  obtain ⟨w, hw⟩ : ∃ w, watching.exec (.new 2 0 0) events = some w := ⟨_, rfl⟩
  exact ⟨w, hw, check_stalled h rfl hw (by decide) (by decide) (Or.inl rfl) (le_refl 2011)⟩

end FrigateZmqDetector.Watchdog
