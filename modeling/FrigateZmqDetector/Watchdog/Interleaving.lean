import Mathlib.Logic.Function.Basic
import FrigateZmqDetector.Lib.Machine
import FrigateZmqDetector.Watchdog.Progress

/-!
# The progress watchdog, one atomic operation at a time

The request loop and any number of checks share the record of the watchdog. A step is one atomic
operation of one of them, in program order, or the passing of time; the clock is read by a step of
its own. `requestStart`, `responseOk`, `responseErr` and `check` of `Watchdog.Progress` are what
these steps come to when nothing interferes (`exec_requestStart` to `exec_check`).
-/

namespace FrigateZmqDetector.Watchdog

open Lib

/-- Where the request loop stands between two atomic operations. -/
inductive LoopPc where
  | idle
  /-- `request_start`: the request is counted -/
  | counted
  | clockRead (startedMs : ℕ)
  /-- the first stamp is offered -/
  | firstStored (startedMs : ℕ)
  /-- `request_start` has returned -/
  | handling
  /-- `response_ok`: the clock is read -/
  | okRead (ms : ℕ)
  | okStored
  | okCleared
  /-- `response_err`: the clock is read -/
  | errRead (ms : ℕ)
  | errStored
  | errCounted
  | exited (code : Int32)
  deriving DecidableEq, Repr

inductive CheckPc where
  | idle
  /-- the swap is won and the first `i` values of the snapshot are loaded -/
  | loading (i : ℕ) (snap : HealthSnapshot)
  /-- there is no reason to exit -/
  | clearing
  /-- the check has returned a reason, from this reading of the clock -/
  | fired (r : Reason) (nowMs : ℕ)
  deriving DecidableEq, Repr

/-- The record, the clock and the threads. `startReads` is what `request_start` has read of the
clock so far; nothing reads it. -/
structure Shared where
  w : ProgressWatchdog
  clock : ℕ
  loop : LoopPc
  checks : ℕ → CheckPc
  startReads : List ℕ

/-- Who moves. At the end of a request `ok` chooses the response. -/
inductive Act where
  | tick (ms : ℕ)
  | loop (ok : Bool)
  | check (id : ℕ)
  deriving DecidableEq, Repr

/-- The next atomic operation of the request loop. -/
def loopOp (s : Shared) (ok : Bool) : Option Shared :=
  match s.loop with
  | .idle =>
    some { s with w := { s.w with totalRequests := fetchAdd s.w.totalRequests }, loop := .counted }
  | .counted =>
    some { s with loop := .clockRead (s.clock + 1), startReads := s.startReads ++ [s.clock] }
  | .clockRead m =>
    some { s with
      w := { s.w with firstRequestMs := compareExchange s.w.firstRequestMs 0 m }
      loop := .firstStored m }
  | .firstStored m => some { s with w := { s.w with inFlightStartMs := m }, loop := .handling }
  | .handling =>
    some { s with loop := if ok then .okRead (s.clock + 1) else .errRead (s.clock + 1) }
  | .okRead m => some { s with w := { s.w with lastSuccessMs := m }, loop := .okStored }
  | .okStored => some { s with w := { s.w with inFlightStartMs := 0 }, loop := .okCleared }
  | .okCleared =>
    some { s with
      w := { s.w with totalSuccesses := fetchAdd s.w.totalSuccesses }
      loop := (s.w.responseOkExit).elim .idle .exited }
  | .errRead m => some { s with w := { s.w with lastFailureMs := m }, loop := .errStored }
  | .errStored =>
    some { s with
      w := { s.w with totalFailures := fetchAdd s.w.totalFailures }, loop := .errCounted }
  | .errCounted => some { s with w := { s.w with inFlightStartMs := 0 }, loop := .idle }
  | .exited _ => none

/-- The snapshot with the `i`-th value loaded, in the order of the source. -/
def load (w : ProgressWatchdog) (clock i : ℕ) (snap : HealthSnapshot) : HealthSnapshot :=
  match i with
  | 0 => { snap with totalRequests := w.totalRequests }
  | 1 => { snap with totalSuccesses := w.totalSuccesses }
  | 2 => { snap with totalFailures := w.totalFailures }
  | 3 => { snap with lastSuccessMs := w.lastSuccessMs }
  | 4 => { snap with lastFailureMs := w.lastFailureMs }
  | 5 => { snap with firstRequestMs := w.firstRequestMs }
  | 6 => { snap with inFlightStartMs := w.inFlightStartMs }
  | _ => { snap with nowMs := clock }

def HealthSnapshot.blank : HealthSnapshot := ⟨0, 0, 0, 0, 0, 0, 0, 0⟩

/-- Where a check stands once it has its eighth value. -/
def decided (w : ProgressWatchdog) (snap : HealthSnapshot) : CheckPc :=
  match snap.reason w with
  | some r => .fired r snap.nowMs
  | none => .clearing

/-- The next atomic operation of a check, on the record and on the place where it stands. -/
def checkOp (w : ProgressWatchdog) (clock : ℕ) : CheckPc → Option (ProgressWatchdog × CheckPc)
  | .idle => some ({ w with fired := true }, if w.fired then .idle else .loading 0 .blank)
  | .loading i snap =>
    some (w, if i < 7 then .loading (i + 1) (load w clock i snap)
      else decided w (load w clock i snap))
  | .clearing => some ({ w with fired := false }, .idle)
  | .fired _ _ => none

/-- The record replaced and one check moved. -/
def Shared.setCheck (s : Shared) (id : ℕ) (w : ProgressWatchdog) (pc : CheckPc) : Shared :=
  { s with w := w, checks := Function.update s.checks id pc }

/-- The interleavings of the request loop with the checks. -/
def interleaving : Machine Shared Act where
  step s
    | .tick ms => some { s with clock := s.clock + ms }
    | .loop ok => loopOp s ok
    | .check id => (checkOp s.w s.clock (s.checks id)).map fun p => s.setCheck id p.1 p.2

def Shared.initial (N M L : ℕ) : Shared where
  w := .new N M L
  clock := 0
  loop := .idle
  checks := fun _ => .idle
  startReads := []

/-! ### What the steps come to when nothing interferes -/

variable {s s' : Shared} {id : ℕ}

theorem exec_requestStart (h : s.loop = .idle) :
    interleaving.exec s (List.replicate 4 (.loop true)) =
      some { s with
        w := s.w.requestStart s.clock
        loop := .handling
        startReads := s.startReads ++ [s.clock] } := by
  obtain ⟨w, clock, loop, checks, reads⟩ := s
  subst h
  rfl

theorem exec_responseOk (h : s.loop = .handling) :
    interleaving.exec s (List.replicate 4 (.loop true)) =
      some { s with
        w := s.w.responseOk s.clock
        loop := (s.w.responseOkExit).elim .idle .exited } := by
  obtain ⟨w, clock, loop, checks, reads⟩ := s
  subst h
  rfl

theorem exec_responseErr (h : s.loop = .handling) :
    interleaving.exec s (List.replicate 4 (.loop false)) =
      some { s with w := s.w.responseErr s.clock, loop := .idle } := by
  obtain ⟨w, clock, loop, checks, reads⟩ := s
  subst h
  rfl

theorem step_check {pc : CheckPc} (h : s.checks id = pc) :
    interleaving.step s (.check id) =
      (checkOp s.w s.clock pc).map fun p => s.setCheck id p.1 p.2 := by
  subst h
  rfl

theorem step_check_setCheck (w : ProgressWatchdog) (pc : CheckPc) :
    interleaving.step (s.setCheck id w pc) (.check id) =
      (checkOp w s.clock pc).map fun p => s.setCheck id p.1 p.2 := by
  have h : (s.setCheck id w pc).checks id = pc := Function.update_self ..
  rw [step_check h]
  simp only [Shared.setCheck, Function.update_idem]

/-- The loads, one after the other, read the snapshot. -/
theorem exec_check_loads (hf : s.w.fired = false) (h : s.checks id = .idle) :
    interleaving.exec s (List.replicate 9 (.check id)) =
      some (s.setCheck id { s.w with fired := true } (decided s.w (s.w.snapshot s.clock))) := by
  rw [List.replicate_succ, Machine.exec_cons, step_check h]
  simp only [checkOp, hf, Bool.false_eq_true, if_false, Option.map_some, Option.bind_some]
  simp only [List.replicate_succ, List.replicate_zero, Machine.exec_cons, Machine.exec_nil,
    step_check_setCheck, checkOp, Option.map_some, Option.bind_some, Nat.reduceLT, Nat.reduceAdd,
    if_true, if_false]
  rfl

/-- **A check that nothing interferes with is `check`.** -/
theorem exec_check (h : s.checks id = .idle) :
    ∃ k, interleaving.exec s (List.replicate k (.check id)) =
      some (s.setCheck id (s.w.check s.clock).2
        ((s.w.check s.clock).1.elim .idle fun r => .fired r s.clock)) := by
  unfold ProgressWatchdog.check
  cases hf : s.w.fired with
  | true =>
    refine ⟨1, ?_⟩
    rw [List.replicate_one, Machine.exec_cons, step_check h, checkOp, hf]
    rfl
  | false =>
    have hloads := exec_check_loads hf h
    unfold decided at hloads
    cases hr : (s.w.snapshot s.clock).reason s.w with
    | some r =>
      rw [hr] at hloads
      exact ⟨9, hloads⟩
    | none =>
      rw [hr] at hloads
      refine ⟨10, ?_⟩
      rw [List.replicate_succ', Machine.exec_snoc]
      exact ⟨_, hloads, step_check_setCheck _ _⟩

end FrigateZmqDetector.Watchdog
