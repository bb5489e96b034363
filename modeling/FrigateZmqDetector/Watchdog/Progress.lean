import Mathlib.Algebra.Ring.Nat
import FrigateZmqDetector.Lib.Stamp

/-!
# The progress watchdog, one call at a time

`ProgressWatchdog` is the record of `watchdog.rs`; every call that reads `elapsed_ms()` gets the
reading as an argument. The counters are `u64` words and wrap like `fetch_add`. A reading counts
the milliseconds since the process started and is a natural number here: the word for it, the
reading plus one, leaves the range of a `u64` after some 584 million years.

`check` is split where the source takes its snapshot: `HealthSnapshot.reason` is what it decides
from the snapshot, one named condition for each of its four exits.
-/

namespace FrigateZmqDetector.Watchdog

open Lib

/-- Exit code when the progress watchdog fires. -/
def exitCodeNoProgress : Int32 := 70

/-- The progress watchdog: counters, stamps (`0` for "not set"), limits (`0` for "disabled") and
the flag that it has fired. -/
structure ProgressWatchdog where
  totalRequests : ℕ
  totalSuccesses : ℕ
  totalFailures : ℕ
  lastSuccessMs : ℕ
  lastFailureMs : ℕ
  firstRequestMs : ℕ
  inFlightStartMs : ℕ
  maxNoProgressSecs : ℕ
  maxRequests : ℕ
  maxLifetimeSecs : ℕ
  fired : Bool
  deriving DecidableEq, Repr

/-- The value `fetch_add(1)` leaves in a `u64`. -/
def fetchAdd (x : ℕ) : ℕ := (x + 1) % 2 ^ 64

/-- The value `compare_exchange(expected, new)` leaves in place of `x`. -/
def compareExchange (x expected new : ℕ) : ℕ := if x = expected then new else x

namespace ProgressWatchdog

def new (maxNoProgressSecs maxRequests maxLifetimeSecs : ℕ) : ProgressWatchdog where
  totalRequests := 0
  totalSuccesses := 0
  totalFailures := 0
  lastSuccessMs := 0
  lastFailureMs := 0
  firstRequestMs := 0
  inFlightStartMs := 0
  maxNoProgressSecs := maxNoProgressSecs
  maxRequests := maxRequests
  maxLifetimeSecs := maxLifetimeSecs
  fired := false

/-! ### The calls of the request loop -/

/-- The start of an inference request. -/
def requestStart (w : ProgressWatchdog) (elapsedMs : ℕ) : ProgressWatchdog :=
  let startedMs := elapsedMs + 1
  { w with
    totalRequests := fetchAdd w.totalRequests
    firstRequestMs := compareExchange w.firstRequestMs 0 startedMs
    inFlightStartMs := startedMs }

/-- What `response_ok` stores. -/
def responseOk (w : ProgressWatchdog) (elapsedMs : ℕ) : ProgressWatchdog :=
  { w with
    lastSuccessMs := elapsedMs + 1
    inFlightStartMs := 0
    totalSuccesses := fetchAdd w.totalSuccesses }

/-- The exit of `response_ok` for recycling: the code it exits with, if it does. -/
def responseOkExit (w : ProgressWatchdog) : Option Int32 :=
  let count := fetchAdd w.totalSuccesses
  if 0 < w.maxRequests ∧ w.maxRequests ≤ count then some 0 else none

theorem responseOkExit_eq_none {w : ProgressWatchdog} : w.responseOkExit = none ↔
    ¬ (0 < w.maxRequests ∧ w.maxRequests ≤ fetchAdd w.totalSuccesses) := by
  simp [responseOkExit]

theorem responseOkExit_eq_some {w : ProgressWatchdog} {code : Int32}
    (h : w.responseOkExit = some code) : code = 0 := by
  obtain ⟨-, hcode⟩ := Option.ite_none_right_eq_some.mp h
  exact (Option.some.inj hcode).symm

def responseErr (w : ProgressWatchdog) (elapsedMs : ℕ) : ProgressWatchdog :=
  { w with
    lastFailureMs := elapsedMs + 1
    totalFailures := fetchAdd w.totalFailures
    inFlightStartMs := 0 }

def isEnabled (w : ProgressWatchdog) : Bool :=
  0 < w.maxNoProgressSecs || 0 < w.maxRequests || 0 < w.maxLifetimeSecs

end ProgressWatchdog

/-! ### The check -/

/-- What `check` reads, with the reading of the clock it takes last. -/
structure HealthSnapshot where
  totalRequests : ℕ
  totalSuccesses : ℕ
  totalFailures : ℕ
  lastSuccessMs : ℕ
  lastFailureMs : ℕ
  firstRequestMs : ℕ
  inFlightStartMs : ℕ
  nowMs : ℕ
  deriving DecidableEq, Repr

inductive Reason where
  | maxLifetime | noSuccess | failure | inFlightStuck
  deriving DecidableEq, Repr

def Reason.text : Reason → String
  | .maxLifetime => "max_lifetime exceeded"
  | .noSuccess => "no success timeout"
  | .failure => "failure timeout"
  | .inFlightStuck => "in-flight stuck"

/-- The reasons that say the worker makes no progress, as opposed to the recycling limit. -/
def Reason.isNoProgress : Reason → Bool
  | .maxLifetime => false
  | .noSuccess | .failure | .inFlightStuck => true

namespace HealthSnapshot

variable (w : ProgressWatchdog) (snap : HealthSnapshot)

/-- The lifetime limit is reached. -/
def LifetimeReached : Prop := 0 < w.maxLifetimeSecs ∧ w.maxLifetimeSecs ≤ snap.nowMs / 1000

/-- No success yet, and the first request is old. -/
def NoSuccess : Prop :=
  (0 < w.maxNoProgressSecs ∧ 0 < snap.totalRequests) ∧ snap.lastSuccessMs = 0 ∧
    w.maxNoProgressSecs ≤ ageSecs snap.nowMs snap.firstRequestMs

/-- The last failure is later than the last success, and old. -/
def FailureTimeout : Prop :=
  (0 < w.maxNoProgressSecs ∧ 0 < snap.totalRequests) ∧ snap.lastSuccessMs < snap.lastFailureMs ∧
    w.maxNoProgressSecs ≤ ageSecs snap.nowMs snap.lastFailureMs

/-- The open request is old. -/
def InFlightStuck : Prop :=
  (0 < w.maxNoProgressSecs ∧ 0 < snap.inFlightStartMs) ∧
    w.maxNoProgressSecs ≤ ageSecs snap.nowMs snap.inFlightStartMs

instance : Decidable (LifetimeReached w snap) := by unfold LifetimeReached; infer_instance
instance : Decidable (NoSuccess w snap) := by unfold NoSuccess; infer_instance
instance : Decidable (FailureTimeout w snap) := by unfold FailureTimeout; infer_instance
instance : Decidable (InFlightStuck w snap) := by unfold InFlightStuck; infer_instance

/-- What `check` returns from the snapshot: the first exit whose condition holds. -/
def reason : Option Reason :=
  if LifetimeReached w snap then some .maxLifetime
  else if NoSuccess w snap then some .noSuccess
  else if FailureTimeout w snap then some .failure
  else if InFlightStuck w snap then some .inFlightStuck
  else none

theorem reason_isSome :
    (reason w snap).isSome ↔ LifetimeReached w snap ∨ NoSuccess w snap ∨ FailureTimeout w snap ∨
      InFlightStuck w snap := by
  unfold reason
  split_ifs <;> simp [*]

theorem reason_eq_maxLifetime : reason w snap = some .maxLifetime ↔ LifetimeReached w snap := by
  unfold reason
  split_ifs <;> simp [*]

theorem reason_eq_noSuccess :
    reason w snap = some .noSuccess ↔ ¬ LifetimeReached w snap ∧ NoSuccess w snap := by
  unfold reason
  split_ifs <;> simp [*]

variable {w snap}

theorem of_reason_eq_failure (h : reason w snap = some .failure) : FailureTimeout w snap := by
  unfold reason at h
  split_ifs at h <;> first | assumption | cases h

theorem of_reason_eq_inFlightStuck (h : reason w snap = some .inFlightStuck) :
    InFlightStuck w snap := by
  unfold reason at h
  split_ifs at h <;> first | assumption | cases h

end HealthSnapshot

namespace ProgressWatchdog

/-- A snapshot taken at once. -/
def snapshot (w : ProgressWatchdog) (elapsedMs : ℕ) : HealthSnapshot where
  totalRequests := w.totalRequests
  totalSuccesses := w.totalSuccesses
  totalFailures := w.totalFailures
  lastSuccessMs := w.lastSuccessMs
  lastFailureMs := w.lastFailureMs
  firstRequestMs := w.firstRequestMs
  inFlightStartMs := w.inFlightStartMs
  nowMs := elapsedMs

/-- The check: the flag is swapped first, and cleared again when there is no reason to exit. -/
def check (w : ProgressWatchdog) (elapsedMs : ℕ) : Option Reason × ProgressWatchdog :=
  if w.fired then (none, { w with fired := true })
  else match (w.snapshot elapsedMs).reason w with
    | some r => (some r, { w with fired := true })
    | none => (none, { w with fired := false })

variable {w : ProgressWatchdog} {n : ℕ}

theorem check_of_not_fired (h : w.fired = false) :
    (w.check n).1 = (w.snapshot n).reason w := by
  unfold check
  rw [h]
  cases (w.snapshot n).reason w <;> rfl

theorem check_of_fired (h : w.fired = true) : (w.check n).1 = none := by
  simp [check, h]

/-- **A check changes nothing but the flag.** -/
theorem check_snd : (w.check n).2 = { w with fired := w.fired || (w.check n).1.isSome } := by
  unfold check
  cases hf : w.fired with
  | true => rfl
  | false => cases (w.snapshot n).reason w <;> rfl

/-- A check that does not fire leaves the watchdog as it was. -/
theorem check_snd_of_none (h : (w.check n).1 = none) : (w.check n).2 = w := by
  rw [check_snd, h, Option.isSome_none, Bool.or_false]

theorem reason_of_check {r : Reason} (h : (w.check n).1 = some r) :
    (w.snapshot n).reason w = some r := by
  cases hf : w.fired with
  | true => rw [check_of_fired hf] at h; cases h
  | false => rwa [check_of_not_fired hf] at h

end ProgressWatchdog

end FrigateZmqDetector.Watchdog
