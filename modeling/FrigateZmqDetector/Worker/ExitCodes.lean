import FrigateZmqDetector.Protocol.FirstModel
import FrigateZmqDetector.Worker.Health

/-!
# What the exit code of a worker tells

Two limits recycle a worker, and its options promise a clean exit for both. A full count of
requests keeps the promise in `response_ok`. The lifetime limit is one of the reasons that `check`
returns, and all three places that call `check` exit with the code of a stalled worker.
`exit_code_iff` says exactly which runs keep the promise: those in which no check is made once the
lifetime limit is reached.
-/

namespace FrigateZmqDetector.Worker

open Lib Protocol Tflite Watchdog HealthSnapshot

/-- The worker exits because a limit for recycling is reached. -/
def Cause.isRecycling : Cause → Bool
  | .recycled => true
  | .watchdog _ reason => !reason.isNoProgress
  | .nativeTimeout | .panic => false

/-- **The exit code tells recycling from failure**, if this step ends the process. -/
def ExitTells {σ : Type} (_ : State σ) (_ : Event) (w' : State σ) : Prop :=
  ∀ code cause, w'.phase = .exited code cause →
    (code = exitCodeNoProgress →
      ∃ site reason, cause = .watchdog site reason ∧ reason.isNoProgress = true) ∧
    (cause.isRecycling = true → code = 0)

variable {σ : Type} {cli : Cli} {json : SerdeJson} {b : DetectorBackend σ} {w w' : State σ}
  {e : Event}

/-- The reading of the clock of the check made in a step, if it makes one. After an error of `recv`
that is the clock after the sleep. -/
def checkClock (w : State σ) : Event → Option ℕ
  | .monitor | .recvTimeout => some w.clock
  | .recvError => some (w.clock + recvBackoffMs ((w.recvErrors + 1) % 2 ^ 32))
  | _ => none

/-- A check made in this step is made before the lifetime limit is reached. -/
def BeforeLifetime (cli : Cli) (w : State σ) (e : Event) (_ : State σ) : Prop :=
  ∀ n, checkClock w e = some n → ¬ (0 < cli.maxLifetimeSecs ∧ 1000 * cli.maxLifetimeSecs ≤ n)

theorem exitTells_of_running (h : w'.phase.isExited = false) : ExitTells w e w' := by
  intro code cause hp
  rw [hp] at h
  cases h

theorem exitTells_of_code {code : Int32} {cause : Cause} (hp : w'.phase = .exited code cause)
    (hcode : code ≠ exitCodeNoProgress) (hcause : cause.isRecycling = true → code = 0) :
    ExitTells w e w' := by
  intro code' cause' hp'
  rw [hp] at hp'
  cases hp'
  exact ⟨fun h => absurd h hcode, hcause⟩

/-- **A check tells unless the lifetime limit is its reason.** -/
theorem exitTells_check {w₀ : State σ} (h : HealthInv cli json w) (hrun : w.phase.isExited = false)
    (site : CheckSite) :
    ExitTells w₀ e (w.check site) ↔
      ¬ (0 < cli.maxLifetimeSecs ∧ 1000 * cli.maxLifetimeSecs ≤ w.clock) := by
  have hreason : (w.health.check w.clock).1 = some .maxLifetime ↔
      0 < cli.maxLifetimeSecs ∧ 1000 * cli.maxLifetimeSecs ≤ w.clock := by
    rw [ProgressWatchdog.check_of_not_fired (h.notFired hrun), reason_eq_maxLifetime,
      h.health_eq hrun]
    exact lifetimeReached_summary
  rw [← hreason]
  rcases w.check_cases site with ⟨hc, hw⟩ | ⟨reason, hc, hw⟩ <;> rw [hc, hw]
  · exact iff_of_true (exitTells_of_running hrun) (fun h => by cases h)
  · constructor
    · rintro htells hmax
      cases hmax
      -- the limit is for recycling, and the code is that of a stalled worker
      have hcode := (htells exitCodeNoProgress (.watchdog site .maxLifetime) rfl).2 rfl
      exact absurd hcode (by decide)
    · intro hother code cause hp
      cases hp
      have hnp : reason.isNoProgress = true := by
        cases reason with
        | maxLifetime => exact absurd rfl hother
        | noSuccess | failure | inFlightStuck => rfl
      refine ⟨fun _ => ⟨site, reason, rfl, hnp⟩, fun hrec => ?_⟩
      simp only [Cause.isRecycling, hnp] at hrec
      cases hrec

theorem before_iff_of_quiet (hc : checkClock w e = none) (ht : ExitTells w e w') :
    ExitTells w e w' ↔ BeforeLifetime cli w e w' := by
  refine iff_of_true ht fun n hn => ?_
  rw [hc] at hn
  cases hn

theorem before_iff_of_check {n : ℕ} (hc : checkClock w e = some n)
    (ht : ExitTells w e w' ↔ ¬ (0 < cli.maxLifetimeSecs ∧ 1000 * cli.maxLifetimeSecs ≤ n)) :
    ExitTells w e w' ↔ BeforeLifetime cli w e w' := by
  rw [ht, BeforeLifetime, hc]
  simp only [Option.some.injEq, forall_eq']

theorem exitTells_iff (h : HealthInv cli json w) (hs : (loop cli json b).step w e = some w') :
    ExitTells w e w' ↔ BeforeLifetime cli w e w' := by
  cases step_cases hs with
  | tick ms hrun => exact before_iff_of_quiet rfl (exitTells_of_running hrun)
  | monitor hrun => exact before_iff_of_check rfl (exitTells_check h hrun _)
  | recv msg hp => exact before_iff_of_quiet rfl (exitTells_of_running rfl)
  | recvTimeout hp => exact before_iff_of_check rfl (exitTells_check h (hp ▸ rfl) _)
  | recvError hp =>
    rw [State.handleRecvError_eq]
    exact before_iff_of_check rfl (exitTells_check h.slept (hp ▸ rfl) _)
  | @start msg hp =>
    refine before_iff_of_quiet rfl (exitTells_of_running ?_)
    rw [(w.start_spec json msg).1]
    rfl
  | @dispatch msg hp =>
    refine before_iff_of_quiet rfl ?_
    rcases w.dispatched_cases json b msg with ⟨reply, -, hw⟩ | hw <;> rw [hw]
    · exact exitTells_of_running rfl
    · exact exitTells_of_code rfl (by decide) (fun h => by cases h)
  | nativeTimeout hp =>
    exact before_iff_of_quiet rfl (exitTells_of_code rfl (by decide) (fun h => by cases h))
  | send outcome hp => exact before_iff_of_quiet rfl (exitTells_of_running rfl)
  | @update msg before sendOk hp =>
    refine before_iff_of_quiet rfl ?_
    unfold State.update
    split_ifs
    · exact exitTells_of_running rfl
    · cases hexit : w.health.responseOkExit with
      | none => exact exitTells_of_running rfl
      | some code =>
        obtain rfl := ProgressWatchdog.responseOkExit_eq_some hexit
        exact exitTells_of_code rfl (by decide) (fun _ => rfl)
    · exact exitTells_of_running rfl

/-- **When the exit code tells recycling from failure**: exactly in the runs in which every check is
made before the lifetime limit is reached. -/
theorem exit_code_iff (cli : Cli) (json : SerdeJson) (b : DetectorBackend σ) (backend : σ)
    (events : List Event) :
    (loop cli json b).Every ExitTells (.initial cli backend) events ↔
      (loop cli json b).Every (BeforeLifetime cli) (.initial cli backend) events :=
  Machine.every_congr (fun _ _ _ h hs => h.step hs) (fun _ _ _ h hs => exitTells_iff h hs)
    (HealthInv.initial backend)

/-- A worker that is to be recycled after one second, without a request, exits with the code of a
stalled one. -/
theorem exit_code_lifetime :
    let cli := { cpuCli with maxLifetimeSecs := 1 }
    ¬ (loop cli transferJson (tfliteBackend smallTflite)).Every ExitTells (.initial cli smallState)
      [.tick 1000, .monitor] := by
  intro cli h
  have hticked : (loop cli transferJson (tfliteBackend smallTflite)).step (.initial cli smallState)
      (.tick 1000) = some { State.initial cli smallState with clock := 1000 } := rfl
  have htells := ((h _ hticked).2 _ rfl).1
  exact (exitTells_check ((HealthInv.initial smallState).step hticked) rfl .monitor).mp htells
    (by decide)

end FrigateZmqDetector.Worker
