import Mathlib.Algebra.Ring.Nat
import FrigateZmqDetector.Worker.Loop

/-!
# Errors of `recv`

A socket that fails at once on every `recv` must not make the loop spin. `handle_recv_error` lets
two errors pass and sleeps on each one after them for as many milliseconds as there have been errors
in a row, up to two seconds. `recv_errors_paced` is what that amounts to: the errors of a run are
paid for with time, but for two after every message, and only a message ends a row of errors.
-/

namespace FrigateZmqDetector.Worker

open Lib Protocol Tflite

variable {σ : Type} {cli : Cli} {json : SerdeJson} {b : DetectorBackend σ} {w w' : State σ}
  {e : Event} {events events' : List Event}

def Event.isRecv : Event → Bool
  | .recv _ => true
  | _ => false

/-- **A step adds an error and sleeps, ends the row with a message, or leaves it.** -/
theorem recvErrors_of_step (hs : (loop cli json b).step w e = some w') :
    (e = .recvError ∧ w'.recvErrors = (w.recvErrors + 1) % 2 ^ 32 ∧
        w'.clock = w.clock + recvBackoffMs w'.recvErrors ∧ w'.received = w.received) ∨
      (e.isRecv = true ∧ w'.recvErrors = 0 ∧ w'.clock = w.clock ∧
        w'.received.length = w.received.length + 1) ∨
      (e ≠ .recvError ∧ e.isRecv = false ∧ w'.recvErrors = w.recvErrors ∧ w.clock ≤ w'.clock ∧
        w'.received = w.received) := by
  cases step_cases hs with
  | tick ms => exact Or.inr (Or.inr ⟨by simp, rfl, rfl, Nat.le_add_right _ _, rfl⟩)
  | monitor | recvTimeout =>
    exact Or.inr (Or.inr ⟨by simp, rfl, by simp, by simp, by simp⟩)
  | recv msg => exact Or.inr (Or.inl ⟨rfl, rfl, rfl, by simp [State.recv]⟩)
  | recvError =>
    rw [State.handleRecvError_eq]
    exact Or.inl ⟨rfl, by simp [State.slept], by simp [State.slept], by simp [State.slept]⟩
  | start =>
    unfold State.start
    split_ifs <;> exact Or.inr (Or.inr ⟨by simp, rfl, rfl, le_rfl, rfl⟩)
  | @dispatch msg =>
    rcases w.dispatched_cases json b msg with ⟨reply, -, hw⟩ | hw <;> rw [hw] <;>
      exact Or.inr (Or.inr ⟨by simp, rfl, rfl, le_rfl, rfl⟩)
  | nativeTimeout | send => exact Or.inr (Or.inr ⟨by simp, rfl, rfl, le_rfl, rfl⟩)
  | update =>
    unfold State.update
    split_ifs <;> exact Or.inr (Or.inr ⟨by simp, rfl, rfl, le_rfl, rfl⟩)

/-! ### Whole runs -/

/-- The errors in a row that cost nothing. -/
def freeErrors (recvErrors : ℕ) : ℕ := min recvErrors 2

/-- **An error is free or takes three milliseconds.** -/
theorem three_le_backoff (n : ℕ) : 3 + 3 * freeErrors n ≤ recvBackoffMs (n + 1) +
    3 * freeErrors (n + 1) := by
  unfold recvBackoffMs freeErrors
  split_ifs <;> omega

/-- The errors so far are paid for: by the clock, or as one of the two after a message. -/
theorem exec_paid {backend : σ}
    (h : (loop cli json b).exec (.initial cli backend) events = some w)
    (hcount : events.count .recvError < 2 ^ 32) :
    w.recvErrors ≤ events.count .recvError ∧
      3 * events.count .recvError ≤ w.clock + (6 * w.received.length + 3 * freeErrors w.recvErrors) := by
  refine Machine.exec_induction (I := fun es v => es.count .recvError < 2 ^ 32 →
    v.recvErrors ≤ es.count .recvError ∧
    3 * es.count .recvError ≤ v.clock + (6 * v.received.length + 3 * freeErrors v.recvErrors))
    (fun es v e v' hI hs hcount => ?_) (fun _ => ⟨le_rfl, le_rfl⟩) h hcount
  rw [List.count_append] at hcount ⊢
  obtain ⟨hrow, hpaid⟩ := hI (by omega)
  rcases recvErrors_of_step hs with ⟨rfl, herrors, hclock, hreceived⟩ |
    ⟨hrecv, herrors, hclock, hreceived⟩ | ⟨hne, -, herrors, hclock, hreceived⟩
  · rw [List.count_singleton_self] at hcount ⊢
    rw [Nat.mod_eq_of_lt (by omega)] at herrors
    rw [hclock, hreceived, herrors]
    have hcost := three_le_backoff v.recvErrors
    omega
  · have hne : ¬ (e == Event.recvError) = true := by
      cases e <;> simp_all [Event.isRecv]
    rw [List.count_singleton, if_neg hne, herrors, hclock, hreceived]
    have hfree : freeErrors v.recvErrors ≤ 2 := min_le_right _ _
    omega
  · rw [List.count_singleton, if_neg (by simpa using hne), herrors, hreceived]
    omega

end FrigateZmqDetector.Worker
