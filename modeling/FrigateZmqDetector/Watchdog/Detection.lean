import FrigateZmqDetector.Watchdog.History

/-!
# Whom the progress watchdog kills, and whom it misses

Both directions over whole histories of the request loop.

* A worker that is killed for lack of progress deserved it (`check_noProgress_sound`): some request
  started more than `N` seconds ago, every success is more than `N` seconds old, and the last word
  was not a success.
* A worker that keeps failing is not always killed. The watchdog keeps one failure stamp, the
  latest, and compares it with the latest success: a failing streak is seen only when its *last*
  failure is old and falls in a later millisecond than the success (`check_streak_iff`).
-/

namespace FrigateZmqDetector.Watchdog

open Lib HealthSnapshot

variable {N M L n : ℕ}

/-! ### Soundness -/

namespace History

variable (h : History)

/-- What must be true of a worker that is killed for lack of progress. -/
structure Stalled (N n : ℕ) : Prop where
  /-- some request started long ago -/
  started : ∃ t ∈ starts h.calls, t + 1000 * N < n
  /-- every success is long ago -/
  successes : ∀ r ∈ oks h.calls, r + 1000 * N < n
  /-- the last word was not a success -/
  unanswered : h.isOpen = true ∨ ∃ f, lastResponse h.calls = some (.responseErr f)

variable {h}

theorem unanswered_of_no_ok {t : ℕ} (ht : (starts h.calls).head? = some t)
    (hok : oks h.calls = []) :
    h.isOpen = true ∨ ∃ f, lastResponse h.calls = some (.responseErr f) := by
  have hne : h.calls ≠ [] := by
    rintro hnil
    rw [hnil] at ht
    cases ht
  have hl := List.getLast?_eq_some_getLast hne
  generalize h.calls.getLast hne = c at hl
  cases hopen : h.isOpen with
  | true => exact Or.inl rfl
  | false =>
    have hlast := h.lastResponse_eq_last hl hopen
    cases c with
    | requestStart t =>
      have := h.isOpen_of_last hl
      rw [hopen] at this
      cases this
    | responseOk r =>
      have hmem : r ∈ oks h.calls := mem_oks.mpr (List.mem_of_getLast? hl)
      rw [hok] at hmem
      cases hmem
    | responseErr f => exact Or.inr ⟨f, hlast⟩

theorem lastResponse_err {g : ℕ} (hg : (errs h.calls).getLast? = some g)
    (hlt : ∀ r ∈ oks h.calls, r < g) : ∃ f, lastResponse h.calls = some (.responseErr f) := by
  have hmem : Call.responseErr g ∈ h.calls.filter fun c => c.start?.isNone :=
    List.mem_filter.mpr ⟨mem_errs.mp (List.mem_of_getLast? hg), rfl⟩
  have hl := List.getLast?_eq_some_getLast (List.ne_nil_of_mem hmem)
  generalize (h.calls.filter fun c => c.start?.isNone).getLast _ = c at hl
  have hle := h.time_le_getLast? hl hmem
  obtain ⟨hc, hresp⟩ := List.mem_filter.mp (List.mem_of_getLast? hl)
  cases c with
  | requestStart t => cases hresp
  | responseOk r =>
    have := hlt r (mem_oks.mpr hc)
    simp only [Call.time] at hle
    omega
  | responseErr f => exact ⟨f, hl⟩

theorem stalled_of_noSuccess
    (hs : NoSuccess (summary h.calls N M L) ((summary h.calls N M L).snapshot n)) :
    h.Stalled N n := by
  obtain ⟨-, hok, t, ht, hage⟩ := noSuccess_summary.mp hs
  refine ⟨⟨t, List.mem_of_head? ht, by omega⟩, ?_, unanswered_of_no_ok ht hok⟩
  intro r hr
  rw [hok] at hr
  cases hr

theorem stalled_of_failureTimeout
    (hs : FailureTimeout (summary h.calls N M L) ((summary h.calls N M L).snapshot n)) :
    h.Stalled N n := by
  obtain ⟨-, g, hg, hlt, hage⟩ := failureTimeout_summary.mp hs
  have hoks : ∀ r ∈ oks h.calls, r < g := by
    intro r hr
    obtain ⟨r', hr', hle⟩ := h.le_lastOk hr
    exact lt_of_le_of_lt hle (hlt r' hr')
  obtain ⟨t, ht, hle⟩ := h.exists_first (mem_errs.mp (List.mem_of_getLast? hg))
  simp only [Call.time] at hle
  refine ⟨⟨t, List.mem_of_head? ht, by omega⟩, ?_, Or.inr (lastResponse_err hg hoks)⟩
  intro r hr
  have := hoks r hr
  omega

theorem stalled_of_inFlightStuck
    (hs : InFlightStuck (summary h.calls N M L) ((summary h.calls N M L).snapshot n)) :
    h.Stalled N n := by
  obtain ⟨-, t, ht, hage⟩ := inFlightStuck_summary.mp hs
  have hl := mem_openStart.mp ht
  refine ⟨⟨t, mem_starts.mpr (List.mem_of_getLast? hl), by omega⟩, ?_,
    Or.inl (h.isOpen_of_last hl)⟩
  intro r hr
  have hle := h.time_le_last hl (mem_oks.mp hr)
  simp only [Call.time] at hle
  omega

theorem not_stalled
    (hh : starts h.calls = [] ∨ ∃ r, h.calls.getLast? = some (.responseOk r)) :
    ¬ h.Stalled N n := by
  rintro ⟨⟨t, ht, -⟩, -, hun⟩
  rcases hh with hnil | ⟨r, hr⟩
  · rw [hnil] at ht
    cases ht
  · have hopen : h.isOpen = false := h.isOpen_of_last hr
    rcases hun with ho | ⟨f, hf⟩
    · rw [hopen] at ho
      cases ho
    · rw [h.lastResponse_eq_last hr hopen] at hf
      cases hf

end History

theorem stalled_of_reason {h : History} {r : Reason} (hr : r.isNoProgress = true)
    (hc : reason (summary h.calls N M L) ((summary h.calls N M L).snapshot n) = some r) :
    h.Stalled N n := by
  cases r with
  | maxLifetime => cases hr
  | noSuccess => exact History.stalled_of_noSuccess ((reason_eq_noSuccess _ _).mp hc).2
  | failure => exact History.stalled_of_failureTimeout (of_reason_eq_failure hc)
  | inFlightStuck => exact History.stalled_of_inFlightStuck (of_reason_eq_inFlightStuck hc)

/-- **No healthy or idle worker is killed for lack of progress**, in whatever state earlier checks
left the flag; and with no lifetime limit a worker that has had no request, or whose last call is a
success, is not killed at all. -/
theorem check_noProgress_sound (h : History) (N M L n : ℕ) (fired : Bool) :
    let w := { (ProgressWatchdog.new N M L).replay h.calls with fired := fired }
    (∀ r, (w.check n).1 = some r → r.isNoProgress = true →
      (∃ t ∈ starts h.calls, t + 1000 * N < n) ∧ (∀ r ∈ oks h.calls, r + 1000 * N < n) ∧
        (h.isOpen = true ∨ ∃ f, lastResponse h.calls = some (.responseErr f))) ∧
    (L = 0 → (starts h.calls = [] ∨ ∃ r, h.calls.getLast? = some (.responseOk r)) →
      (w.check n).1 = none) := by
  intro w
  have key : ∀ r, (w.check n).1 = some r →
      reason (summary h.calls N M L) ((summary h.calls N M L).snapshot n) = some r := by
    intro r hr
    have hw : w = { summary h.calls N M L with fired := fired } := by
      show { (ProgressWatchdog.new N M L).replay h.calls with fired := fired } = _
      rw [replay_new]
    have := ProgressWatchdog.reason_of_check hr
    rw [hw] at this
    exact this
  refine ⟨fun r hr hnp => ?_, fun hL hh => ?_⟩
  · obtain ⟨hs, hok, hun⟩ := stalled_of_reason hnp (key r hr)
    exact ⟨hs, hok, hun⟩
  · cases hc : (w.check n).1 with
    | none => rfl
    | some r =>
      exfalso
      cases hnp : r.isNoProgress with
      | true => exact History.not_stalled hh (stalled_of_reason hnp (key r hc))
      | false =>
        have hr := key r hc
        cases r <;> cases hnp
        have := lifetimeReached_summary.mp ((reason_eq_maxLifetime _ _).mp hr)
        omega

/-- A worker killed in flight, and one left alone after a success. -/
theorem check_noProgress_sound_run :
    (∃ t ∈ starts [.requestStart 3], t + 1000 * 2 < 2004) ∧
      ((ProgressWatchdog.new 2 0 0).replay [.requestStart 3, .responseOk 5] |>.check 9999).1 = none :=
  ⟨((check_noProgress_sound ⟨[.requestStart 3], true, rfl, by simp⟩ 2 0 0 2004 false).1
      .noSuccess (by decide) rfl).1,
    (check_noProgress_sound ⟨[.requestStart 3, .responseOk 5], false, rfl, by simp [Call.time]⟩
      2 0 0 9999 false).2 rfl (Or.inr ⟨5, rfl⟩)⟩

/-! ### Completeness for a failing streak -/

/-- **What of a failing streak shows.** The lifetime limit is reached; or, unless the request
counter has wrapped to zero, there has been no success at all or the *latest* failure is itself `N`
seconds old and later than the latest success; or the open request is `N` seconds old. -/
def StreakShows (cs : List Call) (N L n : ℕ) : Prop :=
  (0 < L ∧ 1000 * L ≤ n) ∨
    (0 < (starts cs).length % 2 ^ 64 ∧ (oks cs = [] ∨
      ∃ g, (errs cs).getLast? = some g ∧ (∀ r, (oks cs).getLast? = some r → r < g) ∧
        g + 1 + 1000 * N ≤ n)) ∨
    ∃ t, openStart cs = some t ∧ t + 1 + 1000 * N ≤ n

/-- With an old failure in the streak, the check fires exactly when the streak shows. -/
theorem check_isSome_iff_streakShows {h : History} (hN : 0 < N) {f : ℕ}
    (hf : f ∈ errsSinceOk h.calls) (hage : f + 1 + 1000 * N ≤ n) :
    (((ProgressWatchdog.new N M L).replay h.calls).check n).1.isSome ↔
      StreakShows h.calls N L n := by
  -- the first request is older than the failure
  obtain ⟨t, ht, hle⟩ := h.exists_first (mem_errs.mp (errsSinceOk_subset hf))
  simp only [Call.time] at hle
  have hfirst : ∃ t, (starts h.calls).head? = some t ∧ t + 1 + 1000 * N ≤ n := ⟨t, ht, by omega⟩
  rw [check_replay, reason_isSome, lifetimeReached_summary, noSuccess_summary,
    failureTimeout_summary, inFlightStuck_summary]
  unfold StreakShows
  simp only [hN, hfirst, true_and, and_true, and_or_left, or_assoc]

/-- **Exactly which failing streaks are caught.** The watchdog fires whenever a failure after the
latest success is `N` seconds old, if and only if the streak shows whenever there is such a
failure. -/
theorem check_streak_iff (h : History) (N M L n : ℕ) (hN : 0 < N) :
    ((∃ f ∈ errsSinceOk h.calls, f + 1 + 1000 * N ≤ n) →
        (((ProgressWatchdog.new N M L).replay h.calls).check n).1.isSome = true) ↔
      ((∃ f ∈ errsSinceOk h.calls, f + 1 + 1000 * N ≤ n) → StreakShows h.calls N L n) := by
  refine forall_congr' fun hold => ?_
  obtain ⟨f, hf, hage⟩ := hold
  exact check_isSome_iff_streakShows hN hf hage

/-- A worker that succeeds once, at 0 ms, and then fails at 1 ms and again at 5000 ms. -/
def failingStreak : History where
  calls := [.requestStart 0, .responseOk 0, .requestStart 1, .responseErr 1, .requestStart 5000,
    .responseErr 5000]
  isOpen := false
  ordered := rfl
  sorted := by simp [Call.time]

/-- The streak that began five seconds ago is not caught: its last failure is fresh. -/
theorem failingStreak_missed :
    ¬ ((∃ f ∈ errsSinceOk failingStreak.calls, f + 1 + 1000 * 5 ≤ 5002) →
      (((ProgressWatchdog.new 5 0 0).replay failingStreak.calls).check 5002).1.isSome = true) := by
  decide

/-- The same streak is caught once its last failure is old. -/
theorem check_streak_caught :
    (((ProgressWatchdog.new 5 0 0).replay failingStreak.calls).check 10001).1.isSome = true :=
  (check_streak_iff failingStreak 5 0 0 10001 (by decide)).mpr
    (fun _ => Or.inr (Or.inl ⟨by decide, Or.inr ⟨5000, rfl, by decide, by decide⟩⟩))
    ⟨1, by decide, by decide⟩

end FrigateZmqDetector.Watchdog
