import FrigateZmqDetector.Watchdog.Process

/-!
# When the watchdog thread wakes up

A wakeup is never lost: while the thread is blocked, either nothing is armed or it is in the timed
wait for the call that is armed now. The wait is relative. Its length comes from the reading of the
clock at the test, and it starts when the thread enters it, so it ends late by exactly what passed
in between (`wakeup_eq`). With nothing in between it ends at the deadline; `late_wakeup` is a run
in which the deadline passes while the thread is asleep.
-/

namespace FrigateZmqDetector.Watchdog

open Lib

/-- The clock at the latest test of the thread, and at its latest entry into a timed wait. -/
structure WaitTimes where
  testedAt : ℕ
  enteredAt : ℕ
  deriving DecidableEq, Repr

def WaitTimes.note (s : ProcessState) (a : ProcessAct) (g : WaitTimes) : WaitTimes :=
  match a, s.thread with
  | .thread, .testing => { g with testedAt := s.clock }
  | .thread, .waiting _ => { g with enteredAt := s.clock }
  | _, _ => g

variable {s s' : ProcessState} {g : WaitTimes} {a : ProcessAct} {acts : List ProcessAct}

theorem ThreadPc.notifyOne_of_free {pc : ThreadPc} (h : pc.holdsMutex = false) :
    pc.notifyOne = .locking ∨ ∃ code, pc.notifyOne = .exited code := by
  cases pc with
  | locking => exact Or.inl rfl
  | testing => cases h
  | waiting wait => cases h
  | blocked wake => exact Or.inl rfl
  | exited code => exact Or.inr ⟨code, rfl⟩

/-- A disarm that notifies nobody leaves the record alone. -/
theorem disarm_cases (state : WatchdogState) (generation : ℕ) :
    (state.disarm generation).2 = true ∨ state.disarm generation = (state, false) := by
  unfold WatchdogState.disarm
  split
  · split_ifs
    · exact Or.inl rfl
    · exact Or.inr rfl
  · exact Or.inr rfl

/-- **What a caller does to the thread**: it moves without the mutex, and either changes nothing the
thread looks at or notifies it. -/
theorem caller_spec (hs : (∃ label timeout, s.call label timeout = some s') ∨
    ∃ i, s.finish i = some s') :
    s'.clock = s.clock ∧ ((s'.state = s.state ∧ s'.thread = s.thread) ∨
      (s.thread.holdsMutex = false ∧ s'.thread = s.thread.notifyOne)) := by
  rcases hs with ⟨label, timeout, hs⟩ | ⟨i, hs⟩
  · unfold ProcessState.call at hs
    split_ifs at hs with hzero hmutex
    · cases hs
      exact ⟨rfl, Or.inl ⟨rfl, rfl⟩⟩
    · cases hs
      exact ⟨rfl, Or.inr ⟨Bool.eq_false_iff.mpr hmutex, rfl⟩⟩
  · unfold ProcessState.finish at hs
    split at hs
    · cases hs
    rename_i c hc
    split at hs
    · cases hs
    rename_i hfree
    cases hs
    have hmutex : s.thread.holdsMutex = false := by simp_all
    refine ⟨rfl, ?_⟩
    rcases disarm_cases s.state c.generation with hnotified | hsame
    · exact Or.inr ⟨hmutex, if_pos hnotified⟩
    · exact Or.inl ⟨congrArg Prod.fst hsame,
        if_neg (Bool.eq_false_iff.mp (congrArg Prod.snd hsame))⟩

/-- **What the thread is waiting for.** -/
def WakeInv (s : ProcessState) (g : WaitTimes) : Prop :=
  match s.thread with
  | .waiting wait =>
    ∃ a, s.state.armed = some a ∧ wait + g.testedAt = a.deadline ∧ g.testedAt ≤ s.clock
  | .blocked none => s.state.armed = none
  | .blocked (some wake) =>
    ∃ a, s.state.armed = some a ∧ wake + g.testedAt = a.deadline + g.enteredAt ∧
      g.testedAt ≤ g.enteredAt
  | .locking | .testing | .exited _ => True

theorem WakeInv.of_notified (h : s.thread.holdsMutex = false)
    (hs : s'.thread = s.thread.notifyOne) : WakeInv s' g := by
  unfold WakeInv
  rcases ThreadPc.notifyOne_of_free h with hpc | ⟨code, hpc⟩
  · rw [hs, hpc]
    exact trivial
  · rw [hs, hpc]
    exact trivial

theorem WakeInv.caller (h : WakeInv s g) (hs : (∃ label timeout, s.call label timeout = some s') ∨
    ∃ i, s.finish i = some s') : WakeInv s' g := by
  obtain ⟨hclock, ⟨hstate, hthread⟩ | ⟨hmutex, hthread⟩⟩ := caller_spec hs
  · unfold WakeInv
    rw [hclock, hstate, hthread]
    exact h
  · exact .of_notified hmutex hthread

theorem WakeInv.thread (h : WakeInv s g) {pc : ThreadPc}
    (hs : s.state.run s.clock s.thread = some pc) :
    WakeInv { s with thread := pc } (g.note s .thread) := by
  unfold WakeInv at h ⊢
  cases hpc : s.thread with
  | locking =>
    rw [hpc] at hs
    cases hs
    exact trivial
  | testing =>
    rw [hpc] at hs
    simp only [WatchdogState.run] at hs
    split at hs
    next harmed =>
      cases hs
      exact harmed
    next a harmed =>
      split_ifs at hs with hlate
      · cases hs
        exact trivial
      · cases hs
        simp only [WaitTimes.note, hpc]
        exact ⟨a, harmed, by omega, le_rfl⟩
  | waiting wait =>
    rw [hpc] at h hs
    cases hs
    obtain ⟨a, harmed, hwait, htested⟩ := h
    simp only [WaitTimes.note, hpc]
    exact ⟨a, harmed, by omega, htested⟩
  | blocked wake =>
    rw [hpc] at hs
    cases wake with
    | none => cases hs
    | some t =>
      simp only [WatchdogState.run] at hs
      split_ifs at hs
      cases hs
      exact trivial
  | exited code =>
    rw [hpc] at hs
    cases hs

theorem WakeInv.step (h : WakeInv s g) (hs : processWatchdog.step s a = some s') :
    WakeInv s' (g.note s a) := by
  obtain ⟨-, hact⟩ := step_eq_some.mp hs
  cases a with
  | tick d =>
    cases hact
    unfold WakeInv at h ⊢
    cases hpc : s.thread with
    | waiting wait =>
      rw [hpc] at h
      obtain ⟨a, harmed, hwait, htested⟩ := h
      exact ⟨a, harmed, hwait, Nat.le_add_right_of_le htested⟩
    | locking | testing | exited code => exact trivial
    | blocked wake =>
      rw [hpc] at h
      cases wake <;> exact h
  | call label timeout => exact h.caller (Or.inl ⟨label, timeout, hact⟩)
  | finish i => exact h.caller (Or.inr ⟨i, hact⟩)
  | thread =>
    obtain ⟨pc, hpc, rfl⟩ := Option.map_eq_some_iff.mp hact
    exact h.thread hpc
  | wakeup =>
    simp only [ProcessState.act] at hact
    split at hact
    · cases hact
      exact trivial
    · cases hact

theorem exec_wakeInv
    (h : (processWatchdog.observe fun s a (g : WaitTimes) => g.note s a).exec (.initial, ⟨0, 0⟩)
      acts = some (s, g)) : WakeInv s g := by
  have hinitial : WakeInv .initial ⟨0, 0⟩ := trivial
  refine Machine.exec_invariant (I := fun p => WakeInv p.1 p.2) (fun p a p' hI hstep => ?_)
    hinitial h
  obtain ⟨hs, hnote⟩ := Machine.step_observe.mp hstep
  exact hnote ▸ hI.step hs

/-- **No wakeup is lost, and how late one can be.** While the thread is blocked, either nothing is
armed, or the thread is in the timed wait and wakes at the deadline of the call armed now plus the
time that passed between its test and its entry into the wait. -/
theorem wakeup_eq (h : processWatchdog.exec .initial acts = some s) :
    ∃ g : WaitTimes, (processWatchdog.observe fun s a g => g.note s a).exec
        (.initial, ⟨0, 0⟩) acts = some (s, g) ∧
      ∀ wake, s.thread = .blocked wake →
        s.state.armed = none ∨
          ∃ a t, s.state.armed = some a ∧ wake = some t ∧ g.testedAt ≤ g.enteredAt ∧
            t = a.deadline + (g.enteredAt - g.testedAt) := by
  obtain ⟨g, hg⟩ := Machine.exec_observe h (fun s a (g : WaitTimes) => g.note s a) ⟨0, 0⟩
  have hinv := exec_wakeInv hg
  refine ⟨g, hg, fun wake hblocked => ?_⟩
  unfold WakeInv at hinv
  rw [hblocked] at hinv
  cases wake with
  | none => exact Or.inl hinv
  | some t =>
    obtain ⟨a, harmed, hwake, hle⟩ := hinv
    exact Or.inr ⟨a, t, harmed, rfl, hle, by omega⟩

/-- A call with a timeout of 5, tested at 0 and waited for from 1 on. -/
def lateRun : List ProcessAct :=
  [.call "inference" 5, .thread, .thread, .tick 1, .thread, .tick 4]

/-- At the deadline the thread of that run is asleep for one more unit, with nothing pending. -/
theorem late_wakeup :
    ¬ ∀ s, processWatchdog.Reachable .initial s → ∀ wake, s.thread = .blocked wake →
      (∀ t, wake = some t → s.clock < t) →
      s.state.armed = none ∨
        ∃ a t, s.state.armed = some a ∧ wake = some t ∧ t ≤ a.deadline := by
  intro h
  rcases h _ ⟨lateRun, rfl⟩ (some 6) rfl (fun t ht => by cases ht; decide) with
    harmed | ⟨a, t, harmed, ht, hle⟩
  · cases harmed
  · cases harmed
    cases ht
    exact absurd hle (by decide)

/-- The thread of that run wakes one unit late, which is what passed before it went to sleep. -/
theorem wakeup_eq_late :
    ∃ s g, (processWatchdog.observe fun s a (g : WaitTimes) => g.note s a).exec
        (.initial, ⟨0, 0⟩) lateRun = some (s, g) ∧ s.thread = .blocked (some 6) ∧
      ∃ a, s.state.armed = some a ∧ 6 = a.deadline + (g.enteredAt - g.testedAt) := by
  obtain ⟨s, hs, hthread⟩ : ∃ s, processWatchdog.exec .initial lateRun = some s ∧
      s.thread = .blocked (some 6) ∧ s.state.armed ≠ none := ⟨_, rfl, rfl, by decide⟩
  obtain ⟨g, hg, hwake⟩ := wakeup_eq hs
  rcases hwake _ hthread.1 with hnone | ⟨a, t, harmed, ht, -, heq⟩
  · exact absurd hnone hthread.2
  · cases ht
    exact ⟨s, g, hg, hthread.1, a, harmed, heq⟩

end FrigateZmqDetector.Watchdog
