import Mathlib.Algebra.Ring.Nat
import Mathlib.Data.List.Basic
import FrigateZmqDetector.Lib.Machine

/-!
# The process watchdog

Guarded calls arm and disarm a record under a mutex, and a thread waits on a condition variable for
the deadline in it. `arm` and `disarm` hold the mutex for their whole body, so each is one step,
taken when the thread does not hold it. The thread's own steps are the acquisition of the mutex,
the test at the head of its loop, the entry into the timed wait (the clock may have moved on since
the test) and the end of a wait; `notify_one` ends the wait of a blocked thread and is lost on any
other, and a blocked thread may also wake for no reason. Time is counted from the start of the
process in any unit.

`calls` is how the guarded calls themselves stand, in the order they were armed: the record is
proved to say of them what it should (`ProcessInv`), and nothing but the generation that `arm`
returned is read back from it.
-/

namespace FrigateZmqDetector.Watchdog

open Lib

/-- Exit code when a single native call exceeds its deadline. -/
def exitCodeNativeTimeout : Int32 := 71

structure ArmedCall where
  label : String
  deadline : ℕ
  timeout : ℕ
  generation : ℕ
  deriving DecidableEq, Repr

structure WatchdogState where
  armed : Option ArmedCall
  generation : ℕ
  deriving DecidableEq, Repr

/-- Arming a call: the record after it, and the generation returned to the caller. -/
def WatchdogState.arm (state : WatchdogState) (label : String) (timeout now : ℕ) :
    WatchdogState × ℕ :=
  let generation := (state.generation + 1) % 2 ^ 64
  (⟨some ⟨label, now + timeout, timeout, generation⟩, generation⟩, generation)

/-- Disarming a generation: the record after it, and whether the thread is notified. -/
def WatchdogState.disarm (state : WatchdogState) (generation : ℕ) : WatchdogState × Bool :=
  match state.armed with
  | some armed =>
    if armed.generation = generation then (⟨none, state.generation⟩, true) else (state, false)
  | none => (state, false)

/-- Where the watchdog thread stands. -/
inductive ThreadPc where
  /-- acquiring the mutex, at its start or at the end of a wait -/
  | locking
  /-- at the head of its loop, with the mutex -/
  | testing
  /-- about to wait this long, with the mutex -/
  | waiting (wait : ℕ)
  /-- blocked, in the timed wait until the instant it carries or in the untimed one -/
  | blocked (wake : Option ℕ)
  | exited (code : Int32)
  deriving DecidableEq, Repr

def ThreadPc.holdsMutex : ThreadPc → Bool
  | .testing | .waiting _ => true
  | .locking | .blocked _ | .exited _ => false

def ThreadPc.notifyOne : ThreadPc → ThreadPc
  | .blocked _ => .locking
  | pc => pc

/-- The step of the thread's loop. -/
def WatchdogState.run (state : WatchdogState) (now : ℕ) : ThreadPc → Option ThreadPc
  | .locking => some .testing
  | .testing =>
    match state.armed with
    | none => some (.blocked none)
    | some armed =>
      if armed.deadline ≤ now then some (.exited exitCodeNativeTimeout)
      else some (.waiting (armed.deadline - now))
  | .waiting wait => some (.blocked (some (now + wait)))
  | .blocked (some wake) => if wake ≤ now then some .locking else none
  | .blocked none => none
  | .exited _ => none

/-- A call of `run_with_process_watchdog` with a nonzero timeout. -/
structure GuardedCall where
  label : String
  timeout : ℕ
  armedAt : ℕ
  generation : ℕ
  finished : Bool
  deriving DecidableEq, Repr

structure ProcessState where
  state : WatchdogState
  thread : ThreadPc
  clock : ℕ
  calls : List GuardedCall
  deriving DecidableEq, Repr

/-- Who moves: time, a caller that starts a call or finishes the `i`-th one, the thread, or a
spurious wakeup of it. -/
inductive ProcessAct where
  | tick (d : ℕ)
  | call (label : String) (timeout : ℕ)
  | finish (i : ℕ)
  | thread
  | wakeup
  deriving DecidableEq, Repr

namespace ProcessState

/-- The start of `run_with_process_watchdog`; a call with no timeout is not guarded. -/
def call (s : ProcessState) (label : String) (timeout : ℕ) : Option ProcessState :=
  if timeout = 0 then some s
  else if s.thread.holdsMutex then none
  else
    let (state, generation) := s.state.arm label timeout s.clock
    some { s with
      state := state
      thread := s.thread.notifyOne
      calls := s.calls ++ [⟨label, timeout, s.clock, generation, false⟩] }

/-- The drop of the guard of the `i`-th call. -/
def finish (s : ProcessState) (i : ℕ) : Option ProcessState :=
  match s.calls[i]? with
  | none => none
  | some c =>
    if c.finished || s.thread.holdsMutex then none
    else
      let (state, notified) := s.state.disarm c.generation
      some { s with
        state := state
        thread := if notified then s.thread.notifyOne else s.thread
        calls := s.calls.set i { c with finished := true } }

/-- The step of whoever moves, while the process runs. -/
def act (s : ProcessState) : ProcessAct → Option ProcessState
  | .tick d => some { s with clock := s.clock + d }
  | .call label timeout => s.call label timeout
  | .finish i => s.finish i
  | .thread => (s.state.run s.clock s.thread).map fun pc => { s with thread := pc }
  | .wakeup =>
    match s.thread with
    | .blocked _ => some { s with thread := .locking }
    | _ => none

def isExited (s : ProcessState) : Bool :=
  match s.thread with
  | .exited _ => true
  | _ => false

/-- `ProcessWatchdog::spawn`. -/
def initial : ProcessState := ⟨⟨none, 0⟩, .locking, 0, []⟩

end ProcessState

/-- The guarded calls and the watchdog thread. Nothing moves once the process has exited. -/
def processWatchdog : Machine ProcessState ProcessAct where
  step s a := if s.isExited then none else s.act a

/-! ### The record and the calls -/

/-- What should be armed for a call. -/
def GuardedCall.armed (c : GuardedCall) : ArmedCall :=
  ⟨c.label, c.armedAt + c.timeout, c.timeout, c.generation⟩

/-- The armed call that a list of calls stands for: the latest one, unless it has finished. -/
def armedOf (calls : List GuardedCall) : Option ArmedCall :=
  calls.getLast?.bind fun c => if c.finished then none else some c.armed

/-- A guarded call that is not finished and whose own timeout has passed since it was armed. -/
def Overdue (s : ProcessState) (c : GuardedCall) : Prop :=
  c ∈ s.calls ∧ c.finished = false ∧ c.armedAt + c.timeout ≤ s.clock

/-- **The record follows the calls.** Generations count the calls; while they have not wrapped, what
is armed is the latest call as long as it is not finished; and the process only exits over an
overdue call. -/
structure ProcessInv (s : ProcessState) : Prop where
  generation : s.state.generation = s.calls.length % 2 ^ 64
  generations : ∀ i c, s.calls[i]? = some c → c.generation = (i + 1) % 2 ^ 64
  armed : s.calls.length < 2 ^ 64 → s.state.armed = armedOf s.calls
  exited : ∀ code, s.thread = .exited code → s.calls.length < 2 ^ 64 →
    code = exitCodeNativeTimeout ∧ ∃ c, Overdue s c

theorem ProcessInv.initial : ProcessInv .initial :=
  ⟨rfl, nofun, fun _ => rfl, nofun⟩

variable {s s' : ProcessState}

theorem armedOf_snoc (calls : List GuardedCall) (c : GuardedCall) :
    armedOf (calls ++ [c]) = if c.finished then none else some c.armed := by
  simp [armedOf]

theorem armedOf_eq_some {calls : List GuardedCall} {a : ArmedCall} :
    armedOf calls = some a ↔
      ∃ c, calls.getLast? = some c ∧ c.finished = false ∧ a = c.armed := by
  unfold armedOf
  rw [Option.bind_eq_some_iff]
  refine exists_congr fun c => and_congr_right fun _ => ?_
  cases c.finished <;> simp [eq_comm]

theorem armedOf_set_of_lt {calls : List GuardedCall} {i : ℕ} (c : GuardedCall)
    (h : i + 1 < calls.length) : armedOf (calls.set i c) = armedOf calls := by
  unfold armedOf
  rw [List.getLast?_eq_getElem?, List.getLast?_eq_getElem?, List.length_set,
    List.getElem?_set_ne (by omega)]

theorem armedOf_set_last {calls : List GuardedCall} {i : ℕ} {c : GuardedCall}
    (h : i + 1 = calls.length) (hc : c.finished = true) : armedOf (calls.set i c) = none := by
  unfold armedOf
  have hlast : calls.length - 1 = i := by omega
  rw [List.getLast?_eq_getElem?, List.length_set, hlast, List.getElem?_set_self (by omega)]
  simp [hc]

theorem generation_ne {i j : ℕ} (hij : i < j) (hj : j < 2 ^ 64) : i % 2 ^ 64 ≠ j % 2 ^ 64 := by
  rw [Nat.mod_eq_of_lt (by omega), Nat.mod_eq_of_lt hj]
  omega

/-- **What disarming does to the record**: it clears it exactly for the latest call. -/
theorem disarm_armedOf (h : ProcessInv s) (hlen : s.calls.length < 2 ^ 64) {i : ℕ}
    {c : GuardedCall} (hi : s.calls[i]? = some c) (hc : c.finished = false) :
    (s.state.disarm c.generation).1.armed =
      armedOf (s.calls.set i { c with finished := true }) := by
  obtain ⟨hlt, hget⟩ := List.getElem?_eq_some_iff.mp hi
  have harmed := h.armed hlen
  by_cases hlast : i + 1 = s.calls.length
  · -- the latest call: its own generation is armed
    have hcall : s.calls.getLast? = some c := by
      rw [List.getLast?_eq_getElem?, show s.calls.length - 1 = i by omega, hi]
    rw [armedOf_eq_some.mpr ⟨c, hcall, hc, rfl⟩] at harmed
    rw [armedOf_set_last hlast rfl]
    simp [WatchdogState.disarm, harmed, GuardedCall.armed]
  · -- an earlier call: nothing is armed, or a later generation
    rw [armedOf_set_of_lt _ (by omega), ← harmed]
    unfold WatchdogState.disarm
    cases ha : s.state.armed with
    | none => exact ha
    | some a =>
      rw [ha] at harmed
      obtain ⟨c', hc', -, rfl⟩ := armedOf_eq_some.mp harmed.symm
      rw [List.getLast?_eq_getElem?] at hc'
      have hne : c'.generation ≠ c.generation := by
        rw [h.generations _ _ hc', h.generations _ _ hi]
        exact (generation_ne (by omega) (by omega)).symm
      simp [GuardedCall.armed, hne, ha]

/-! ### The invariant -/

theorem step_eq_some {a : ProcessAct} : processWatchdog.step s a = some s' ↔
    (∀ code, s.thread ≠ .exited code) ∧ s.act a = some s' := by
  have hiff : s.isExited = false ↔ ∀ code, s.thread ≠ .exited code := by
    unfold ProcessState.isExited
    split <;> simp_all
  rw [← hiff]
  cases hex : s.isExited <;> simp [processWatchdog, hex]

theorem ThreadPc.notifyOne_ne_exited {pc : ThreadPc} {code : Int32} (h : pc ≠ .exited code) :
    pc.notifyOne ≠ .exited code := by
  cases pc <;> simp_all [ThreadPc.notifyOne]

theorem ProcessInv.call (h : ProcessInv s) (hex : ∀ code, s.thread ≠ .exited code) {label : String}
    {timeout : ℕ} (hs : s.call label timeout = some s') : ProcessInv s' := by
  unfold ProcessState.call at hs
  split at hs
  · cases hs
    exact h
  split at hs
  · cases hs
  cases hs
  refine ⟨?_, fun i c hi => ?_, fun _ => ?_, fun code hcode => ?_⟩
  · simp only [List.length_append, List.length_singleton, h.generation, Nat.mod_add_mod]
  · rcases Nat.lt_or_ge i s.calls.length with hlt | hge
    · rw [List.getElem?_append_left hlt] at hi
      exact h.generations i c hi
    · rw [List.getElem?_append_right hge, List.getElem?_singleton] at hi
      split at hi
      · cases hi
        rw [show i = s.calls.length by omega]
        simp only [h.generation, Nat.mod_add_mod]
      · cases hi
  · rw [armedOf_snoc]
    rfl
  · exact absurd hcode (ThreadPc.notifyOne_ne_exited (hex code))

/-- **What finishing a call does**: the record is disarmed, and the thread can only be notified. -/
theorem finish_spec {i : ℕ} (hs : s.finish i = some s') :
    ∃ c, s.calls[i]? = some c ∧ c.finished = false ∧
      s'.state = (s.state.disarm c.generation).1 ∧
      (s'.thread = s.thread ∨ s'.thread = s.thread.notifyOne) ∧ s'.clock = s.clock ∧
      s'.calls = s.calls.set i { c with finished := true } := by
  unfold ProcessState.finish at hs
  split at hs
  · cases hs
  rename_i c hi
  split at hs
  · cases hs
  rename_i hfree
  cases hs
  refine ⟨c, hi, by simp_all, rfl, ?_, rfl, rfl⟩
  by_cases hn : (s.state.disarm c.generation).2 = true
  · exact Or.inr (if_pos hn)
  · exact Or.inl (if_neg hn)

theorem disarm_generation (state : WatchdogState) (g : ℕ) :
    (state.disarm g).1.generation = state.generation := by
  unfold WatchdogState.disarm
  split
  · split <;> rfl
  · rfl

theorem ProcessInv.finish (h : ProcessInv s) (hex : ∀ code, s.thread ≠ .exited code) {i : ℕ}
    (hs : s.finish i = some s') : ProcessInv s' := by
  obtain ⟨c, hi, hc, hstate, hthread, hclock, hcalls⟩ := finish_spec hs
  refine ⟨?_, fun j c' hj => ?_, fun hlen => ?_, fun code hcode => ?_⟩
  · rw [hstate, hcalls, List.length_set, disarm_generation, h.generation]
  · rw [hcalls, List.getElem?_set] at hj
    split at hj
    · split at hj
      · cases hj
        subst_vars
        exact h.generations _ c hi
      · cases hj
    · exact h.generations j c' hj
  · rw [hcalls, List.length_set] at hlen
    rw [hstate, hcalls, disarm_armedOf h hlen hi hc]
  · exfalso
    rcases hthread with hsame | hnotified
    · exact hex code (hsame ▸ hcode)
    · exact ThreadPc.notifyOne_ne_exited (hex code) (hnotified ▸ hcode)

/-- **The thread exits only over an armed call that is overdue.** -/
theorem run_exited {state : WatchdogState} {now : ℕ} {pc : ThreadPc} {code : Int32}
    (h : state.run now pc = some (.exited code)) :
    code = exitCodeNativeTimeout ∧ ∃ a, state.armed = some a ∧ a.deadline ≤ now := by
  unfold WatchdogState.run at h
  split at h
  · cases h
  · split at h
    · cases h
    · rename_i a ha
      split at h
      · cases h
        exact ⟨rfl, a, ha, by assumption⟩
      · cases h
  · cases h
  · split at h <;> cases h
  · cases h
  · cases h

theorem ProcessInv.thread (h : ProcessInv s) {pc : ThreadPc}
    (hs : s.state.run s.clock s.thread = some pc) : ProcessInv { s with thread := pc } := by
  refine ⟨h.generation, h.generations, h.armed, fun code hcode hlen => ?_⟩
  cases hcode
  obtain ⟨rfl, a, ha, hle⟩ := run_exited hs
  rw [h.armed hlen] at ha
  obtain ⟨c, hc, hfin, rfl⟩ := armedOf_eq_some.mp ha
  exact ⟨rfl, c, List.mem_of_getLast? hc, hfin, hle⟩

theorem ProcessInv.step {a : ProcessAct} (h : ProcessInv s)
    (hs : processWatchdog.step s a = some s') : ProcessInv s' := by
  obtain ⟨hex, hact⟩ := step_eq_some.mp hs
  cases a with
  | tick d =>
    cases hact
    exact ⟨h.generation, h.generations, h.armed, fun code hcode => absurd hcode (hex code)⟩
  | call label timeout => exact h.call hex hact
  | finish i => exact h.finish hex hact
  | thread =>
    obtain ⟨pc, hpc, rfl⟩ := Option.map_eq_some_iff.mp hact
    exact h.thread hpc
  | wakeup =>
    simp only [ProcessState.act] at hact
    split at hact
    · cases hact
      exact ⟨h.generation, h.generations, h.armed, nofun⟩
    · cases hact

/-- **The watchdog only acts on a call that is still running and overdue.** What is armed is the
latest call, with its own label, generation, timeout and deadline, exactly while that call has not
finished; the drop of an older guard changes nothing; and the process exits only while some guarded
call has not finished and its own timeout has passed since it was armed. -/
theorem process_watchdog_safe (hr : processWatchdog.Reachable .initial s)
    (hlen : s.calls.length < 2 ^ 64) :
    (s.state.armed.isSome = true ↔ ∃ c, s.calls.getLast? = some c ∧ c.finished = false) ∧
    (∀ a, s.state.armed = some a → ∃ c, s.calls.getLast? = some c ∧ c.finished = false ∧
      a.label = c.label ∧ a.generation = c.generation ∧ a.timeout = c.timeout ∧
      a.deadline = c.armedAt + c.timeout) ∧
    (∀ i s', i + 1 < s.calls.length → processWatchdog.step s (.finish i) = some s' →
      s'.state = s.state) ∧
    (∀ code, s.thread = .exited code → code = exitCodeNativeTimeout ∧
      ∃ c ∈ s.calls, c.finished = false ∧ c.armedAt + c.timeout ≤ s.clock) := by
  have h : ProcessInv s := hr.invariant (fun _ _ _ h hs => h.step hs) ProcessInv.initial
  have harmed := h.armed hlen
  refine ⟨?_, fun a ha => ?_, fun i s' hi hs => ?_, fun code hcode => ?_⟩
  · rw [harmed, Option.isSome_iff_exists]
    constructor
    · rintro ⟨a, ha⟩
      obtain ⟨c, hc, hfin, -⟩ := armedOf_eq_some.mp ha
      exact ⟨c, hc, hfin⟩
    · rintro ⟨c, hc, hfin⟩
      exact ⟨c.armed, armedOf_eq_some.mpr ⟨c, hc, hfin, rfl⟩⟩
  · rw [harmed] at ha
    obtain ⟨c, hc, hfin, rfl⟩ := armedOf_eq_some.mp ha
    exact ⟨c, hc, hfin, rfl, rfl, rfl, rfl⟩
  · obtain ⟨c, hc, hfin, hstate, -⟩ := finish_spec (step_eq_some.mp hs).2
    have harm := disarm_armedOf h hlen hc hfin
    rw [armedOf_set_of_lt _ hi, ← harmed] at harm
    rw [hstate]
    exact congrArg₂ WatchdogState.mk harm (disarm_generation _ _)
  · obtain ⟨hc, c, hmem, hfin, hle⟩ := h.exited code hcode hlen
    exact ⟨hc, c, hmem, hfin, hle⟩

/-- Two overlapping calls: the older one finishes while the newer one hangs, and the thread exits
over the newer one. -/
def overlappingRun : List ProcessAct :=
  [.thread, .thread, .call "warmup inference" 150, .tick 100, .call "inference" 150, .finish 0,
    .thread, .thread, .thread, .tick 150, .thread, .thread, .thread]

/-- The exit of that run is over the second call. -/
theorem process_watchdog_safe_overlapping :
    ∃ s, processWatchdog.exec .initial overlappingRun = some s ∧
      s.thread = .exited exitCodeNativeTimeout ∧
      ∃ c ∈ s.calls, c.finished = false ∧ c.armedAt + c.timeout ≤ s.clock :=
  ⟨_, rfl, rfl, ((process_watchdog_safe ⟨overlappingRun, rfl⟩ (by decide)).2.2.2 _ rfl).2⟩

end FrigateZmqDetector.Watchdog
