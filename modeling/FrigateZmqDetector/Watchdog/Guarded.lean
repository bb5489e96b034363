import FrigateZmqDetector.Watchdog.Wakeup

/-!
# Guarded calls, one after the other

The sidecar makes its native calls from one thread, so a call is armed only when the guard of the
call before it has been dropped. `guarded` is the process watchdog with such a caller. Its record is
always that of the call in progress, however many calls there have been (`guarded_safe`), and when
no thread that can run is kept waiting for longer than `late`, no call in progress is older than its
timeout and twice that (`guarded_timely`).
-/

namespace FrigateZmqDetector.Watchdog

open Lib

/-- The process watchdog with a caller that makes one call at a time. -/
structure Guarded where
  process : ProcessState
  /-- The `WatchdogGuard` of the call in progress. -/
  guard : Option ℕ
  /-- Since when the thread can run, unless it is blocked. -/
  readySince : ℕ
  deriving DecidableEq, Repr

inductive GuardedAct where
  | tick (d : ℕ)
  | arm (label : String) (timeout : ℕ)
  | drop
  | thread
  | wakeup
  deriving DecidableEq, Repr

/-- Since when a thread can run that stops being blocked now. The end of a timed wait counts from
the instant it was due. -/
def ThreadPc.readyAt (clock since : ℕ) : ThreadPc → ℕ
  | .blocked none => clock
  | .blocked (some wake) => min clock wake
  | _ => since

namespace Guarded

variable (g : Guarded)

def initial : Guarded := ⟨.initial, none, 0⟩

/-- What a step that takes no time leaves. -/
def after (process : ProcessState) (guard : Option ℕ) : Guarded where
  process := process
  guard := guard
  readySince := g.process.thread.readyAt g.process.clock g.readySince

/-- The call in progress. -/
def current : Option GuardedCall := g.guard.bind fun i => g.process.calls[i]?

end Guarded

def guarded : Machine Guarded GuardedAct where
  step g
    | .tick d => (processWatchdog.step g.process (.tick d)).map fun p => { g with process := p }
    | .arm label timeout =>
      if g.guard = none ∧ 0 < timeout then
        (processWatchdog.step g.process (.call label timeout)).map fun p =>
          g.after p (some g.process.calls.length)
      else none
    | .drop => g.guard.bind fun i =>
      (processWatchdog.step g.process (.finish i)).map fun p => g.after p none
    | .thread => (processWatchdog.step g.process .thread).map fun p => g.after p g.guard
    | .wakeup => (processWatchdog.step g.process .wakeup).map fun p => g.after p g.guard

inductive GuardedStep (g : Guarded) : GuardedAct → Guarded → Prop
  | tick (d : ℕ) :
    GuardedStep g (.tick d) { g with process := { g.process with clock := g.process.clock + d } }
  | arm {label : String} {timeout : ℕ} {p : ProcessState} (hguard : g.guard = none)
    (ht : 0 < timeout) (h : g.process.call label timeout = some p) :
    GuardedStep g (.arm label timeout) (g.after p (some g.process.calls.length))
  | drop {i : ℕ} {p : ProcessState} (hguard : g.guard = some i) (h : g.process.finish i = some p) :
    GuardedStep g .drop (g.after p none)
  | thread {pc : ThreadPc} (h : g.process.state.run g.process.clock g.process.thread = some pc) :
    GuardedStep g .thread (g.after { g.process with thread := pc } g.guard)
  | wakeup {wake : Option ℕ} (h : g.process.thread = .blocked wake) :
    GuardedStep g .wakeup (g.after { g.process with thread := .locking } g.guard)

variable {g g' : Guarded} {a : GuardedAct} {acts : List GuardedAct} {s s' : ProcessState}

theorem guarded_step_cases (hs : guarded.step g a = some g') :
    (∀ code, g.process.thread ≠ .exited code) ∧ GuardedStep g a g' := by
  cases a with
  | tick d =>
    obtain ⟨p, hp, rfl⟩ := Option.map_eq_some_iff.mp hs
    obtain ⟨hex, hact⟩ := step_eq_some.mp hp
    cases hact
    exact ⟨hex, .tick d⟩
  | arm label timeout =>
    obtain ⟨⟨hguard, ht⟩, hs⟩ := Option.ite_none_right_eq_some.mp hs
    obtain ⟨p, hp, rfl⟩ := Option.map_eq_some_iff.mp hs
    obtain ⟨hex, hact⟩ := step_eq_some.mp hp
    exact ⟨hex, .arm hguard ht hact⟩
  | drop =>
    obtain ⟨i, hi, hs⟩ := Option.bind_eq_some_iff.mp hs
    obtain ⟨p, hp, rfl⟩ := Option.map_eq_some_iff.mp hs
    obtain ⟨hex, hact⟩ := step_eq_some.mp hp
    exact ⟨hex, .drop hi hact⟩
  | thread =>
    obtain ⟨p, hp, rfl⟩ := Option.map_eq_some_iff.mp hs
    obtain ⟨hex, hact⟩ := step_eq_some.mp hp
    obtain ⟨pc, hpc, rfl⟩ := Option.map_eq_some_iff.mp hact
    exact ⟨hex, .thread hpc⟩
  | wakeup =>
    obtain ⟨p, hp, rfl⟩ := Option.map_eq_some_iff.mp hs
    obtain ⟨hex, hact⟩ := step_eq_some.mp hp
    simp only [ProcessState.act] at hact
    split at hact
    next wake hblocked =>
      cases hact
      exact ⟨hex, .wakeup hblocked⟩
    next => cases hact

/-! ### What the steps do -/

theorem isExited_eq_false : s.isExited = false ↔ ∀ code, s.thread ≠ .exited code := by
  unfold ProcessState.isExited
  split <;> simp_all

/-- **What a guarded call does when it starts.** -/
theorem call_spec {label : String} {timeout : ℕ} (ht : 0 < timeout)
    (hs : s.call label timeout = some s') :
    s.thread.holdsMutex = false ∧ s'.thread = s.thread.notifyOne ∧ s'.clock = s.clock ∧
      ∃ c : GuardedCall, c.armedAt = s.clock ∧ c.timeout = timeout ∧ c.finished = false ∧
        s'.state.armed = some c.armed ∧ s'.calls = s.calls ++ [c] := by
  unfold ProcessState.call at hs
  rw [if_neg (Nat.pos_iff_ne_zero.mp ht)] at hs
  split_ifs at hs with hmutex
  cases hs
  exact ⟨Bool.eq_false_iff.mpr hmutex, rfl, rfl, ⟨_, _, _, _, _⟩, rfl, rfl, rfl, rfl, rfl⟩

theorem disarm_self {state : WatchdogState} {armed : ArmedCall} (h : state.armed = some armed) :
    (state.disarm armed.generation).1.armed = none := by
  simp [WatchdogState.disarm, h]

/-- **The record is that of the call in progress**, and the process exits only over that call. -/
structure GuardedInv (g : Guarded) : Prop where
  present : g.guard ≠ none → g.current ≠ none
  unfinished : ∀ c, g.current = some c → c.finished = false
  armed : g.process.state.armed = g.current.map GuardedCall.armed
  exited : ∀ code, g.process.thread = .exited code → code = exitCodeNativeTimeout ∧
    ∃ c, g.current = some c ∧ c.armedAt + c.timeout ≤ g.process.clock

namespace GuardedInv

theorem initial : GuardedInv .initial where
  present h := absurd rfl h
  unfinished _ h := by cases h
  armed := rfl
  exited _ h := by cases h

variable (h : GuardedInv g)
include h

/-- A step that leaves the calls and the record alone. -/
theorem quiet (hguard : g'.guard = g.guard) (hcalls : g'.process.calls = g.process.calls)
    (hstate : g'.process.state = g.process.state)
    (hexited : ∀ code, g'.process.thread = .exited code → code = exitCodeNativeTimeout ∧
      ∃ c, g'.current = some c ∧ c.armedAt + c.timeout ≤ g'.process.clock) : GuardedInv g' := by
  have hcurrent : g'.current = g.current := by
    unfold Guarded.current
    rw [hguard, hcalls]
  refine ⟨?_, ?_, ?_, hexited⟩
  · rw [hguard, hcurrent]
    exact h.present
  · rw [hcurrent]
    exact h.unfinished
  · rw [hcurrent, hstate]
    exact h.armed

omit h in
theorem arm {label : String} {timeout : ℕ} (ht : 0 < timeout)
    (hex : ∀ code, g.process.thread ≠ .exited code)
    (hs : g.process.call label timeout = some s') :
    GuardedInv (g.after s' (some g.process.calls.length)) := by
  obtain ⟨-, hthread, -, c, -, -, hc, harmed, hcalls⟩ := call_spec ht hs
  have hcurrent : (g.after s' (some g.process.calls.length)).current = some c := by
    unfold Guarded.current Guarded.after
    rw [hcalls]
    simp
  refine ⟨fun _ => ?_, fun c' hc' => ?_, ?_, fun code hcode => ?_⟩
  · rw [hcurrent]
    exact Option.some_ne_none c
  · rw [hcurrent, Option.some.injEq] at hc'
    exact hc' ▸ hc
  · rw [hcurrent]
    exact harmed
  · exact absurd (hthread.symm.trans hcode) (ThreadPc.notifyOne_ne_exited (hex code))

/-- The guard that is dropped is that of the armed call. -/
theorem drop {i : ℕ} (hi : g.guard = some i) (hex : ∀ code, g.process.thread ≠ .exited code)
    (hs : g.process.finish i = some s') : GuardedInv (g.after s' none) := by
  obtain ⟨c, hc, -, hstate, hthread, -⟩ := finish_spec hs
  have hcurrent : g.current = some c := by
    unfold Guarded.current
    rw [hi, Option.bind_some, hc]
  have harmed : g.process.state.armed = some c.armed := by
    rw [h.armed, hcurrent]
    rfl
  refine ⟨fun hne => absurd rfl hne, fun _ hc' => (by cases hc'), ?_, fun code hcode => ?_⟩
  · show s'.state.armed = none
    rw [hstate]
    exact disarm_self harmed
  · exfalso
    rcases hthread with hsame | hnotified
    · exact hex code (hsame ▸ hcode)
    · exact ThreadPc.notifyOne_ne_exited (hex code) (hnotified ▸ hcode)

theorem step (hs : guarded.step g a = some g') : GuardedInv g' := by
  obtain ⟨hex, hstep⟩ := guarded_step_cases hs
  cases hstep with
  | tick d => exact h.quiet rfl rfl rfl fun code hcode => absurd hcode (hex code)
  | arm hguard ht hcall => exact .arm ht hex hcall
  | drop hi hfinish => exact h.drop hi hex hfinish
  | thread hpc =>
    refine h.quiet rfl rfl rfl fun code hcode => ?_
    cases hcode
    obtain ⟨hcode, armed, harmed, hle⟩ := run_exited hpc
    rw [h.armed] at harmed
    obtain ⟨c, hc, rfl⟩ := Option.map_eq_some_iff.mp harmed
    exact ⟨hcode, c, hc, hle⟩
  | wakeup => exact h.quiet rfl rfl rfl fun _ hcode => by cases hcode

end GuardedInv

theorem exec_guardedInv (h : guarded.exec .initial acts = some g) : GuardedInv g :=
  Machine.exec_invariant (fun _ _ _ hI hstep => hI.step hstep) .initial h

/-- **The watchdog of one caller is about the call in progress**: whatever the number of calls, the
record is that of this call, there is none between two calls, and the process exits only when the
timeout of this very call has passed since it was armed. -/
theorem guarded_safe (h : guarded.exec .initial acts = some g) :
    (g.process.state.armed = none ↔ g.guard = none) ∧
    (∀ i, g.guard = some i → ∃ c, g.process.calls[i]? = some c ∧ c.finished = false ∧
      g.process.state.armed = some c.armed) ∧
    ∀ code, g.process.thread = .exited code → code = exitCodeNativeTimeout ∧
      ∃ i c, g.guard = some i ∧ g.process.calls[i]? = some c ∧
        c.armedAt + c.timeout ≤ g.process.clock := by
  have hinv := exec_guardedInv h
  have hcurrent : ∀ {i c}, g.guard = some i → g.current = some c → g.process.calls[i]? = some c := by
    intro i c hi hc
    rwa [Guarded.current, hi, Option.bind_some] at hc
  refine ⟨?_, fun i hi => ?_, fun code hcode => ?_⟩
  · rw [hinv.armed, Option.map_eq_none_iff]
    constructor
    · intro hnone
      by_contra hguard
      exact hinv.present hguard hnone
    · intro hguard
      rw [Guarded.current, hguard, Option.bind_none]
  · obtain ⟨c, hc⟩ := Option.ne_none_iff_exists'.mp (hinv.present (hi ▸ Option.some_ne_none i))
    refine ⟨c, hcurrent hi hc, hinv.unfinished c hc, ?_⟩
    rw [hinv.armed, hc, Option.map_some]
  · obtain ⟨hcode, c, hc, hle⟩ := hinv.exited code hcode
    obtain ⟨i, hi, -⟩ := Option.bind_eq_some_iff.mp hc
    exact ⟨hcode, i, c, hi, hcurrent hi hc, hle⟩

/-- A second call hangs after the first has returned, and the thread exits over it. -/
def hangingRun : List GuardedAct :=
  [.arm "warmup inference" 5, .thread, .thread, .tick 4, .thread, .drop, .tick 3,
    .arm "inference" 5, .thread, .thread, .thread, .tick 6, .thread, .thread, .thread]

theorem guarded_safe_hanging :
    ∃ g, guarded.exec .initial hangingRun = some g ∧
      g.process.thread = .exited exitCodeNativeTimeout ∧
      ∃ i c, g.guard = some i ∧ g.process.calls[i]? = some c ∧
        c.armedAt + c.timeout ≤ g.process.clock := by
  have hrun : guarded.exec .initial hangingRun = some _ := rfl
  exact ⟨_, hrun, rfl, ((guarded_safe hrun).2.2 _ rfl).2⟩

/-! ### Who can move -/

section Enabled

variable (hex : ∀ code, g.process.thread ≠ .exited code)
include hex

/-- A thread that holds the mutex gives it back by a step of its own. -/
theorem thread_enabled (hmutex : g.process.thread.holdsMutex = true) :
    (guarded.step g .thread).isSome = true := by
  have hrun : (g.process.state.run g.process.clock g.process.thread).isSome = true := by
    cases hpc : g.process.thread with
    | locking | blocked | exited => rw [hpc] at hmutex; cases hmutex
    | waiting => rfl
    | testing =>
      unfold WatchdogState.run
      dsimp only
      split
      · rfl
      · split_ifs <;> rfl
  simp [guarded, processWatchdog, isExited_eq_false.mpr hex, ProcessState.act, hrun]

theorem arm_enabled (hmutex : g.process.thread.holdsMutex = false) (hguard : g.guard = none)
    (label : String) {timeout : ℕ} (ht : 0 < timeout) :
    (guarded.step g (.arm label timeout)).isSome = true := by
  simp [guarded, processWatchdog, isExited_eq_false.mpr hex, ProcessState.act, ProcessState.call,
    hguard, hmutex, ht, Nat.pos_iff_ne_zero.mp ht]

theorem drop_enabled (h : GuardedInv g) (hmutex : g.process.thread.holdsMutex = false)
    (hguard : g.guard ≠ none) : (guarded.step g .drop).isSome = true := by
  obtain ⟨i, hi⟩ := Option.ne_none_iff_exists'.mp hguard
  obtain ⟨c, hc⟩ := Option.ne_none_iff_exists'.mp (h.present hguard)
  have hfinished := h.unfinished c hc
  rw [Guarded.current, hi, Option.bind_some] at hc
  simp [guarded, processWatchdog, isExited_eq_false.mpr hex, ProcessState.act,
    ProcessState.finish, hi, hc, hfinished, hmutex]

end Enabled

/-! ### How old a call can get -/

/-- The thread has not been kept waiting for longer than `late` since it could run. -/
def Guarded.Punctual (late : ℕ) (g : Guarded) : Prop :=
  match g.process.thread with
  | .blocked none | .exited _ => True
  | .blocked (some wake) => g.process.clock ≤ wake + late
  | .locking | .testing | .waiting _ => g.process.clock ≤ g.readySince + late

instance (late : ℕ) : DecidablePred (Guarded.Punctual late) := fun g => by
  unfold Guarded.Punctual
  split <;> infer_instance

/-- What a thread that is never kept waiting is doing for the armed call. -/
def OnTime (late : ℕ) (g : Guarded) (armed : ArmedCall) : Prop :=
  match g.process.thread with
  | .locking | .testing => g.readySince ≤ armed.deadline + late
  | .waiting wait =>
    -- the wait was computed at the test
    ∃ tested, g.readySince ≤ tested ∧ tested ≤ g.process.clock ∧ wait + tested = armed.deadline
  | .blocked none => False
  | .blocked (some wake) => wake ≤ armed.deadline + late
  | .exited _ => g.process.clock ≤ armed.deadline + 2 * late

structure Timely (late : ℕ) (g : Guarded) : Prop where
  since : g.readySince ≤ g.process.clock
  onTime : ∀ armed, g.process.state.armed = some armed → OnTime late g armed

variable {late : ℕ} {armed : ArmedCall}

theorem readyAt_le (h : g.readySince ≤ g.process.clock) :
    g.process.thread.readyAt g.process.clock g.readySince ≤ g.process.clock := by
  unfold ThreadPc.readyAt
  split
  · exact le_rfl
  · exact Nat.min_le_left _ _
  · exact h

/-- Nothing can run since later than now. -/
theorem readySince_le_step (h : g.readySince ≤ g.process.clock)
    (hs : guarded.step g a = some g') : g'.readySince ≤ g'.process.clock := by
  have hready := readyAt_le h
  obtain ⟨-, hstep⟩ := guarded_step_cases hs
  cases hstep with
  | tick d => exact Nat.le_add_right_of_le h
  | arm _ ht hcall =>
    obtain ⟨-, -, hclock, -⟩ := call_spec ht hcall
    exact hclock ▸ hready
  | drop _ hfinish =>
    obtain ⟨-, -, -, -, -, hclock, -⟩ := finish_spec hfinish
    exact hclock ▸ hready
  | thread | wakeup => exact hready

/-- **The bound**: being called late costs the thread at most `late` before its wait and at most
`late` after it. -/
theorem OnTime.clock_le (h : OnTime late g armed) (hp : g.Punctual late) :
    g.process.clock ≤ armed.deadline + 2 * late := by
  unfold OnTime at h
  unfold Guarded.Punctual at hp
  cases hpc : g.process.thread with
  | locking | testing =>
    rw [hpc] at h hp
    simp only at h hp
    omega
  | waiting wait =>
    rw [hpc] at h hp
    obtain ⟨tested, hsince, hclock, hwait⟩ := h
    simp only at hp
    omega
  | blocked wake =>
    rw [hpc] at h hp
    cases wake with
    | none => exact h.elim
    | some wake =>
      simp only at h hp
      omega
  | exited code =>
    rw [hpc] at h
    exact h

namespace Timely

theorem initial : Timely late .initial where
  since := le_rfl
  onTime _ h := by cases h

variable (h : Timely late g)
include h

theorem tick (d : ℕ) (hex : ∀ code, g.process.thread ≠ .exited code) :
    Timely late { g with process := { g.process with clock := g.process.clock + d } } := by
  refine ⟨Nat.le_add_right_of_le h.since, fun armed harmed => ?_⟩
  have hot := h.onTime armed harmed
  unfold OnTime at hot ⊢
  cases hpc : g.process.thread with
  | locking | testing =>
    rw [hpc] at hot
    exact hot
  | waiting wait =>
    rw [hpc] at hot
    obtain ⟨tested, hsince, hclock, hwait⟩ := hot
    exact ⟨tested, hsince, Nat.le_add_right_of_le hclock, hwait⟩
  | blocked wake =>
    rw [hpc] at hot
    cases wake <;> exact hot
  | exited code => exact absurd hpc (hex code)

/-- A call arms its deadline, and the thread is going to test it. -/
theorem arm {label : String} {timeout : ℕ} (ht : 0 < timeout)
    (hex : ∀ code, g.process.thread ≠ .exited code)
    (hs : g.process.call label timeout = some s') (guard : Option ℕ) :
    Timely late (g.after s' guard) := by
  obtain ⟨hmutex, hthread, hclock, c, hat, -, -, harmed, -⟩ := call_spec ht hs
  have hready := readyAt_le h.since
  refine ⟨hclock ▸ hready, fun armed ha => ?_⟩
  have hpc : s'.thread = .locking := by
    rcases ThreadPc.notifyOne_of_free hmutex with hlock | ⟨code, hcode⟩
    · exact hthread.trans hlock
    · exact absurd hcode (ThreadPc.notifyOne_ne_exited (hex code))
  have hdeadline : g.process.clock ≤ armed.deadline := by
    cases Option.some.inj (harmed.symm.trans ha)
    exact hat ▸ Nat.le_add_right _ _
  unfold OnTime Guarded.after
  rw [hpc]
  exact le_trans (Nat.le_trans hready hdeadline) (Nat.le_add_right _ _)

/-- Between two calls there is nothing to be late for. -/
theorem disarmed (hclock : s'.clock = g.process.clock) (hs : s'.state.armed = none)
    (guard : Option ℕ) : Timely late (g.after s' guard) where
  since := hclock ▸ readyAt_le h.since
  onTime armed ha := by
    rw [show (g.after s' guard).process.state.armed = none from hs] at ha
    cases ha

theorem wakeup {wake : Option ℕ} (hpc : g.process.thread = .blocked wake) :
    Timely late (g.after { g.process with thread := .locking } g.guard) := by
  refine ⟨readyAt_le h.since, fun armed ha => ?_⟩
  have hot := h.onTime armed ha
  unfold OnTime at hot
  rw [hpc] at hot
  show g.process.thread.readyAt g.process.clock g.readySince ≤ armed.deadline + late
  rw [hpc]
  cases wake with
  | none => exact hot.elim
  | some wake => exact le_trans (min_le_right _ _) hot

/-- The step of the thread: a test that finds the deadline passed is the last one, and a wait that
starts late ends late by as much. -/
theorem thread (hp : g.Punctual late) {pc : ThreadPc}
    (hs : g.process.state.run g.process.clock g.process.thread = some pc) :
    Timely late (g.after { g.process with thread := pc } g.guard) := by
  refine ⟨readyAt_le h.since, fun armed ha => ?_⟩
  have hot := h.onTime armed ha
  have hbound := hot.clock_le hp
  have hready := readyAt_le h.since
  unfold OnTime at hot
  unfold OnTime Guarded.after
  unfold Guarded.Punctual at hp
  cases hpc : g.process.thread with
  | locking =>
    rw [hpc] at hs hot
    cases hs
    exact hot
  | testing =>
    rw [hpc] at hs hready
    change g.process.state.armed = some armed at ha
    simp only [WatchdogState.run, ha] at hs
    split_ifs at hs with hlate
    · cases hs
      exact hbound
    · cases hs
      exact ⟨g.process.clock, hready, le_rfl, by omega⟩
  | waiting wait =>
    rw [hpc] at hs hot hp
    cases hs
    obtain ⟨tested, hsince, hclock, hwait⟩ := hot
    simp only at hp ⊢
    omega
  | blocked wake =>
    rw [hpc] at hs hot
    cases wake with
    | none => cases hs
    | some wake =>
      obtain ⟨-, hs⟩ := Option.ite_none_right_eq_some.mp hs
      cases hs
      exact le_trans (min_le_right _ _) hot
  | exited code =>
    rw [hpc] at hs
    cases hs

theorem step (hinv : GuardedInv g) (hp : g.Punctual late) (hs : guarded.step g a = some g') :
    Timely late g' := by
  obtain ⟨hex, hstep⟩ := guarded_step_cases hs
  cases hstep with
  | tick d => exact h.tick d hex
  | arm hguard ht hcall => exact h.arm ht hex hcall _
  | drop hi hfinish =>
    obtain ⟨-, -, -, -, -, hclock, -⟩ := finish_spec hfinish
    exact h.disarmed hclock (hinv.drop hi hex hfinish).armed _
  | thread hpc => exact h.thread hp hpc
  | wakeup hblocked => exact h.wakeup hblocked

end Timely

/-- **No call gets old.** In a run in which the thread is never kept waiting for longer than `late`,
no call in progress is older than its timeout and twice `late`, and the process does not exit over
it later than that. -/
theorem guarded_timely (hp : guarded.Always (Guarded.Punctual late) .initial acts)
    (h : guarded.exec .initial acts = some g) {i : ℕ} {c : GuardedCall} (hi : g.guard = some i)
    (hc : g.process.calls[i]? = some c) :
    g.process.clock ≤ c.armedAt + c.timeout + 2 * late := by
  obtain ⟨⟨hinv, htimely⟩, hpunctual⟩ := Machine.exec_invariant_of_always
    (I := fun g => GuardedInv g ∧ Timely late g)
    (fun _ _ _ hI hp _ hstep => ⟨hI.1.step hstep, hI.2.step hI.1 hp hstep⟩)
    ⟨.initial, .initial⟩ hp h
  have harmed : g.process.state.armed = some c.armed := by
    rw [hinv.armed, Guarded.current, hi, Option.bind_some, hc, Option.map_some]
  exact (htimely.onTime _ harmed).clock_le hpunctual

/-- The thread of that run is never kept waiting for longer than 4. -/
theorem guarded_timely_hanging :
    ∃ g c, guarded.exec .initial hangingRun = some g ∧ g.process.calls[1]? = some c ∧
      g.process.clock ≤ c.armedAt + c.timeout + 2 * 4 := by
  have hpunctual : guarded.Always (Guarded.Punctual 4) .initial hangingRun := by decide
  exact ⟨_, _, rfl, rfl, guarded_timely hpunctual rfl (i := 1) rfl rfl⟩

/-! ### Between two calls -/

/-- A process watchdog that calls may have used, and that none is using now. -/
structure Idle where
  state : Guarded
  reached : ∃ acts, guarded.exec .initial acts = some state
  guard : state.guard = none
  running : ∀ code, state.process.thread ≠ .exited code

namespace Idle

/-- That of a new process. -/
def fresh : Idle := ⟨.initial, ⟨[], rfl⟩, rfl, fun _ h => by cases h⟩

variable (g : Idle)

theorem guardedInv : GuardedInv g.state := by
  obtain ⟨acts, h⟩ := g.reached
  exact exec_guardedInv h

/-- However late its thread has been called before, it is in time for the calls to come. -/
theorem timely (late : ℕ) : Timely late g.state where
  since := by
    obtain ⟨acts, h⟩ := g.reached
    exact Machine.exec_invariant (I := fun g => g.readySince ≤ g.process.clock)
      (fun _ _ _ hI hs => readySince_le_step hI hs) le_rfl h
  onTime armed ha := by
    rw [g.guardedInv.armed, Guarded.current, g.guard] at ha
    cases ha

end Idle

/-- The first `n` calls are over. -/
structure Guarded.Past (n : ℕ) (g : Guarded) : Prop where
  calls : n ≤ g.process.calls.length
  guard : ∀ i, g.guard = some i → n ≤ i

theorem Idle.past (g : Idle) : g.state.Past g.state.process.calls.length where
  calls := le_rfl
  guard i hi := by
    rw [g.guard] at hi
    cases hi

/-- **What is over stays so.** -/
theorem Guarded.Past.step {n : ℕ} (h : g.Past n) (hs : guarded.step g a = some g') :
    g'.Past n := by
  obtain ⟨-, hstep⟩ := guarded_step_cases hs
  cases hstep with
  | tick | thread | wakeup => exact ⟨h.calls, h.guard⟩
  | @arm _ _ p _ ht hcall =>
    obtain ⟨-, -, -, c, -, -, -, -, hcalls⟩ := call_spec ht hcall
    refine ⟨?_, fun i hi => ?_⟩
    · show n ≤ p.calls.length
      rw [hcalls, List.length_append]
      exact Nat.le_add_right_of_le h.calls
    · cases hi
      exact h.calls
  | @drop i p _ hfinish =>
    obtain ⟨c, -, -, -, -, -, hcalls⟩ := finish_spec hfinish
    refine ⟨?_, fun i hi => by cases hi⟩
    show n ≤ p.calls.length
    rw [hcalls, List.length_set]
    exact h.calls

end FrigateZmqDetector.Watchdog
