import FrigateZmqDetector.Worker.Loop

/-!
# The progress watchdog of a worker

In every run of the loop, whatever its messages and their fate, the calls made to the progress
watchdog are a history in the order of `Watchdog.History`, and the watchdog holds what that history
says (`HealthInv`). What is proved of histories there is so proved of workers.
-/

namespace FrigateZmqDetector.Worker

open Lib Protocol Watchdog

variable {σ : Type} {cli : Cli} {json : SerdeJson} {b : DetectorBackend σ} {w w' : State σ}
  {e : Event} {events : List Event}

/-- An inference request has been counted, and not yet been answered for. -/
def Phase.inFlight (json : SerdeJson) : Phase σ → Bool
  | .dispatching msg | .sending msg _ _ | .updating msg _ _ => !classifyMessage json msg
  | .receiving | .received _ | .exited .. => false

/-- The watchdog after these calls, with the limits of the command line. -/
def summaryOf (cli : Cli) (calls : List Call) : ProgressWatchdog :=
  summary calls cli.maxNoProgressSecs cli.maxRequests cli.maxLifetimeSecs

/-- What the calls of a worker and its watchdog are in every state. -/
structure HealthInv (cli : Cli) (json : SerdeJson) (w : State σ) : Prop where
  /-- The calls are in order, and one is open while a request is in flight. -/
  ordered : ∃ isOpen, requestOrder.exec false w.calls = some isOpen ∧
    (w.phase.isExited = false → isOpen = w.phase.inFlight json)
  sorted : w.calls.Pairwise fun c c' => c.time ≤ c'.time
  bounded : ∀ c ∈ w.calls, c.time ≤ w.clock
  /-- Only the flag is not in the history. -/
  health : w.health = { summaryOf cli w.calls with fired := w.health.fired }
  notFired : w.phase.isExited = false → w.health.fired = false

namespace HealthInv

theorem initial (backend : σ) : HealthInv cli json (.initial cli backend) where
  ordered := ⟨false, rfl, fun _ => rfl⟩
  sorted := .nil
  bounded _ hc := by cases hc
  health := rfl
  notFired _ := rfl

variable (h : HealthInv cli json w)
include h

theorem health_eq (hrun : w.phase.isExited = false) : w.health = summaryOf cli w.calls := by
  rw [h.health, h.notFired hrun]
  rfl

theorem quiet (hcalls : w'.calls = w.calls) (hclock : w.clock ≤ w'.clock)
    (hhealth : w'.health = { w.health with fired := w'.health.fired })
    (hphase : w'.phase.isExited = false → w.phase.isExited = false ∧
      w'.phase.inFlight json = w.phase.inFlight json ∧ w'.health.fired = w.health.fired) :
    HealthInv cli json w' where
  ordered := by
    obtain ⟨o, ho, hopen⟩ := h.ordered
    rw [hcalls]
    refine ⟨o, ho, fun hrun => ?_⟩
    obtain ⟨hrun', hin, -⟩ := hphase hrun
    rw [hin, hopen hrun']
  sorted := hcalls ▸ h.sorted
  bounded c hc := (h.bounded c (hcalls ▸ hc)).trans hclock
  health := by
    rw [hhealth, h.health, hcalls]
  notFired hrun := by
    obtain ⟨hrun', -, hfired⟩ := hphase hrun
    rw [hfired, h.notFired hrun']

theorem slept : HealthInv cli json w.slept :=
  h.quiet rfl (Nat.le_add_right _ _) rfl fun hrun => ⟨hrun, rfl, rfl⟩

theorem call (c : Call) (isOpen : Bool) (hrun : w.phase.isExited = false)
    (hc : c.time = w.clock) (horder : requestOrder.step (w.phase.inFlight json) c = some isOpen)
    (hcalls : w'.calls = w.calls ++ [c]) (hclock : w'.clock = w.clock)
    (hhealth : w'.health = w.health.apply c)
    (hphase : w'.phase.isExited = false → w'.phase.inFlight json = isOpen) :
    HealthInv cli json w' := by
  have hnew : w'.health = summaryOf cli w'.calls := by
    rw [hhealth, hcalls, h.health_eq hrun]
    exact summary_snoc c
  refine ⟨?_, ?_, ?_, ?_, ?_⟩
  · obtain ⟨o, ho, hopen⟩ := h.ordered
    rw [hcalls]
    exact ⟨isOpen, Machine.exec_snoc.mpr ⟨_, hopen hrun ▸ ho, horder⟩,
      fun hrun' => (hphase hrun').symm⟩
  · rw [hcalls, List.pairwise_append]
    refine ⟨h.sorted, List.pairwise_singleton _ _, fun a ha c' hc' => ?_⟩
    rw [List.mem_singleton.mp hc', hc]
    exact h.bounded a ha
  · intro a ha
    rw [hcalls, List.mem_append, List.mem_singleton] at ha
    rw [hclock]
    rcases ha with ha | rfl
    · exact h.bounded a ha
    · exact hc.le
  · rw [hnew]
  · intro _
    rw [hnew]
    rfl

/-- A check makes no call, and a worker that goes on has not fired. -/
theorem check (site : CheckSite) : HealthInv cli json (w.check site) := by
  rcases w.check_cases site with ⟨-, hw⟩ | ⟨reason, -, hw⟩ <;> rw [hw]
  · exact h
  · exact h.quiet rfl le_rfl rfl fun hrun => by cases hrun

/-- **Every step keeps the invariant.** -/
theorem step (hs : (loop cli json b).step w e = some w') : HealthInv cli json w' := by
  cases step_cases hs with
  | tick ms hrun => exact h.quiet rfl (Nat.le_add_right _ _) rfl fun _ => ⟨hrun, rfl, rfl⟩
  | monitor => exact h.check _
  | recv msg hp => exact h.quiet rfl le_rfl rfl fun _ => ⟨hp ▸ rfl, hp ▸ rfl, rfl⟩
  | recvTimeout => exact h.check _
  | recvError hp => exact h.slept.check _
  | @start msg hp =>
    unfold State.start
    split_ifs with hc
    · exact h.quiet rfl le_rfl rfl fun _ => ⟨hp ▸ rfl, by simp [hp, Phase.inFlight, hc], rfl⟩
    · exact h.call (.requestStart w.clock) true (hp ▸ rfl) rfl (by rw [hp]; rfl) rfl rfl rfl
        fun _ => by simp [Phase.inFlight, hc]
  | @dispatch msg hp =>
    rcases w.dispatched_cases json b msg with ⟨reply, -, hw⟩ | hw <;> rw [hw]
    · exact h.quiet rfl le_rfl rfl fun _ => ⟨hp ▸ rfl, hp ▸ rfl, rfl⟩
    · exact h.quiet rfl le_rfl rfl fun hrun => by cases hrun
  | nativeTimeout => exact h.quiet rfl le_rfl rfl fun hrun => by cases hrun
  | send outcome hp => exact h.quiet rfl le_rfl rfl fun _ => ⟨hp ▸ rfl, hp ▸ rfl, rfl⟩
  | @update msg before sendOk hp =>
    unfold State.update
    split_ifs with hc hok
    · exact h.quiet rfl le_rfl rfl fun _ => ⟨hp ▸ rfl, by simp [hp, Phase.inFlight, hc], rfl⟩
    · refine h.call (.responseOk w.clock) false (hp ▸ rfl) rfl
        (by simp [hp, Phase.inFlight, hc, requestOrder]) rfl rfl rfl fun _ => ?_
      rcases w.health.responseOkExit with _ | code <;> rfl
    · exact h.call (.responseErr w.clock) false (hp ▸ rfl) rfl
        (by simp [hp, Phase.inFlight, hc, requestOrder]) rfl rfl rfl fun _ => rfl

end HealthInv

/-- **The calls of a worker are a history, and its watchdog holds what the history says.** -/
theorem exec_healthInv {backend : σ}
    (h : (loop cli json b).exec (.initial cli backend) events = some w) :
    HealthInv cli json w :=
  Machine.exec_invariant (fun _ _ _ h hs => h.step hs) (.initial backend) h

end FrigateZmqDetector.Worker
