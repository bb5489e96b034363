import FrigateZmqDetector.Service
import FrigateZmqDetector.Worker.Deadlines

/-!
# The service in time

An inference that hangs stops the worker for good. What the two watchdogs and the supervisor are for
is that it does not stop the service: `availability` bounds how long a worker is stuck in one guarded
call or one inference request, and how long there is no worker, by the limits of the command line,
the longest pause of the supervisor, and the time that anything that could move is kept waiting.
Loading is not covered. How long a new worker takes to get to its loop is up to the native library,
and so is how long a transfer takes, which no watchdog guards.
-/

namespace FrigateZmqDetector.Service

open Lib Protocol Tflite Watchdog Worker

variable {W : Type}

/-- The service with a clock, in milliseconds. -/
structure Timed (W : Type) where
  service : State W
  now : ℕ
  spawnedAt : ℕ
  /-- When the sleep of the supervisor is over. -/
  wake : ℕ
  /-- Since when there is no process of a worker. -/
  down : Option ℕ

/-- Who moves: time, the supervisor but for its wait for an exit, a worker that enters its loop, the
worker, whatever kills its process, or the supervisor when it learns of the exit. -/
inductive TimedAct (W : Type) where
  | tick (ms : ℕ)
  | supervisor (e : Supervisor.Event)
  | enter (native : W) (watchdog : Idle)
  | worker (a : SystemAct)
  | kill
  | notice

namespace Timed

def initial : Timed W := ⟨.initial, 0, 0, 0, some 0⟩

variable (s : Timed W)

/-- The worker while its process is there. -/
def worker : Option (System (TfliteState W)) := if s.down.isNone then s.service.worker else none

/-- A step of the supervisor; a worker that is spawned is there. -/
def supervised (e : Supervisor.Event) (service : State W) : Timed W :=
  match e with
  | .spawned => { s with service := service, spawnedAt := s.now, down := none }
  | _ => { s with service := service }

/-- A step of the worker, which may have been its last one. -/
def stepped (service : State W) : Timed W :=
  { s with
    service := service
    down := if service.worker.any (·.loop.phase.isExited) then some s.now else none }

/-- How long the worker ran, as the supervisor measures it. -/
def runtime : Supervisor.Duration := 1000000 * (s.now - s.spawnedAt)

end Timed

/-- Before the first worker, or between two of them. -/
def isIdle : Supervisor.Phase → Bool
  | .starting | .spawning => true
  | .waiting | .failed _ => false

/-- The latest pause, in milliseconds. -/
def pauseMs (s : Supervisor.State) : ℕ := s.pause / 1000000

/-- **The service in time.** -/
def timed (cli : Cli) (json : SerdeJson) (lib : EdgefirstTflite W) :
    Machine (Timed W) (TimedAct W) where
  step s a :=
    let step := (service cli json lib).step s.service
    match a with
    | .tick ms =>
      match s.worker with
      | some _ => (step (.worker (.tick ms))).map fun service =>
        { s with service := service, now := s.now + ms }
      | none => some { s with now := s.now + ms }
    | .supervisor e =>
      if e.runtime? = none ∧ (isIdle s.service.supervisor.phase = true → s.wake ≤ s.now) then
        (step (.supervisor e)).map (s.supervised e)
      else none
    | .enter native watchdog =>
      if s.down = none then
        (step (.enter native watchdog)).map fun service => { s with service := service }
      else none
    | .worker (.tick _) => none
    | .worker a => if s.down = none then (step (.worker a)).map s.stepped else none
    | .kill => if s.down = none then some { s with down := some s.now } else none
    | .notice =>
      if s.down = none then none
      else (step (.supervisor (.exited s.runtime))).map fun service =>
        { s with service := service, wake := s.now + pauseMs service.supervisor }

/-- What a step of the service in time is. -/
inductive TimedStep (cli : Cli) (json : SerdeJson) (lib : EdgefirstTflite W) (s : Timed W) :
    TimedAct W → Timed W → Prop
  | tick {w w' : System (TfliteState W)} (ms : ℕ) (hworker : s.worker = some w)
    (h : (system cli json (tfliteBackend lib)).step w (.tick ms) = some w') :
    TimedStep cli json lib s (.tick ms)
      { s with service := { s.service with worker := some w' }, now := s.now + ms }
  | wait (ms : ℕ) (hworker : s.worker = none) :
    TimedStep cli json lib s (.tick ms) { s with now := s.now + ms }
  | supervisor {e : Supervisor.Event} {supervisor : Supervisor.State} (he : e.runtime? = none)
    (hwake : isIdle s.service.supervisor.phase = true → s.wake ≤ s.now)
    (h : Supervisor.supervise.step s.service.supervisor e = some supervisor) :
    TimedStep cli json lib s (.supervisor e)
      (s.supervised e { s.service with supervisor := supervisor })
  | enter {native : W} {watchdog : Idle} {backend : TfliteState W} (hdown : s.down = none)
    (h : (startup (tfliteBackend lib) cli).run ⟨selectBackend cli, native⟩ = (.ok (), backend)) :
    TimedStep cli json lib s (.enter native watchdog)
      { s with service := { s.service with worker := some (.initial cli backend watchdog) } }
  | worker {w w' : System (TfliteState W)} {a : SystemAct} (hworker : s.worker = some w)
    (h : (system cli json (tfliteBackend lib)).step w a = some w') :
    TimedStep cli json lib s (.worker a) (s.stepped { s.service with worker := some w' })
  | kill (hdown : s.down = none) :
    TimedStep cli json lib s .kill { s with down := some s.now }
  | notice {t : ℕ} {supervisor : Supervisor.State} (hdown : s.down = some t)
    (h : Supervisor.supervise.step s.service.supervisor (.exited s.runtime) = some supervisor) :
    TimedStep cli json lib s .notice
      { s with
        service := ⟨supervisor, none, s.service.workers⟩
        wake := s.now + pauseMs supervisor }

variable {cli : Cli} {json : SerdeJson} {lib : EdgefirstTflite W} {s s' : Timed W} {a : TimedAct W}
  {acts : List (TimedAct W)} {w : System (TfliteState W)} {late : ℕ}

theorem Timed.worker_of_down (h : s.down = none) : s.worker = s.service.worker := by
  rw [Timed.worker, h]
  rfl

theorem Timed.worker_eq_some (h : s.worker = some w) : s.down = none ∧ s.service.worker = some w := by
  obtain ⟨hdown, hworker⟩ := Option.ite_none_right_eq_some.mp h
  exact ⟨Option.isNone_iff_eq_none.mp hdown, hworker⟩

theorem timed_step_cases (hs : (timed cli json lib).step s a = some s') :
    TimedStep cli json lib s a s' := by
  cases a with
  | tick ms =>
    simp only [timed] at hs
    cases hworker : s.worker with
    | none =>
      rw [hworker] at hs
      cases hs
      exact .wait ms hworker
    | some w =>
      rw [hworker] at hs
      obtain ⟨service, hstep, rfl⟩ := Option.map_eq_some_iff.mp hs
      cases service_step_cases hstep with
      | worker hw h =>
        cases hw.symm.trans (Timed.worker_eq_some hworker).2
        exact .tick ms hworker h
  | supervisor e =>
    obtain ⟨⟨he, hwake⟩, hs⟩ := Option.ite_none_right_eq_some.mp hs
    obtain ⟨service, hstep, rfl⟩ := Option.map_eq_some_iff.mp hs
    cases service_step_cases hstep with
    | supervisor h =>
      cases e with
      | exited => cases he
      | _ => exact .supervisor he hwake h
  | enter native watchdog =>
    obtain ⟨hdown, hs⟩ := Option.ite_none_right_eq_some.mp hs
    obtain ⟨service, hstep, rfl⟩ := Option.map_eq_some_iff.mp hs
    cases service_step_cases hstep with
    | enter _ h => exact .enter hdown h
  | worker a =>
    have hs : (if s.down = none then
        ((service cli json lib).step s.service (.worker a)).map s.stepped else none) = some s' := by
      cases a with
      | tick => cases hs
      | _ => exact hs
    obtain ⟨hdown, hs⟩ := Option.ite_none_right_eq_some.mp hs
    obtain ⟨service, hstep, rfl⟩ := Option.map_eq_some_iff.mp hs
    cases service_step_cases hstep with
    | worker hw h => exact .worker ((Timed.worker_of_down hdown).trans hw) h
  | kill =>
    obtain ⟨hdown, h⟩ := Option.ite_none_right_eq_some.mp hs
    cases h
    exact .kill hdown
  | notice =>
    obtain ⟨hdown, hs⟩ := Option.ite_none_left_eq_some.mp hs
    obtain ⟨service, hstep, rfl⟩ := Option.map_eq_some_iff.mp hs
    obtain ⟨t, hdown⟩ := Option.ne_none_iff_exists'.mp hdown
    cases service_step_cases hstep with
    | supervisor h => exact .notice hdown h

/-- **What is proved of the service holds of the service in time.** -/
theorem timed_simulates : Machine.Simulates (timed cli json lib) (service cli json lib)
    fun s t => t = s.service := by
  rintro s t a s' rfl hs
  cases a with
  | tick ms =>
    simp only [timed] at hs
    cases hworker : s.worker with
    | none =>
      rw [hworker] at hs
      cases hs
      exact Machine.match_none rfl
    | some w =>
      rw [hworker] at hs
      obtain ⟨service, hstep, rfl⟩ := Option.map_eq_some_iff.mp hs
      exact Machine.match_one hstep rfl
  | supervisor e =>
    obtain ⟨-, hs⟩ := Option.ite_none_right_eq_some.mp hs
    obtain ⟨service, hstep, rfl⟩ := Option.map_eq_some_iff.mp hs
    refine Machine.match_one hstep ?_
    cases e <;> rfl
  | enter native watchdog =>
    obtain ⟨-, hs⟩ := Option.ite_none_right_eq_some.mp hs
    obtain ⟨service, hstep, rfl⟩ := Option.map_eq_some_iff.mp hs
    exact Machine.match_one hstep rfl
  | worker a =>
    cases a with
    | tick => cases hs
    | _ =>
      obtain ⟨-, hs⟩ := Option.ite_none_right_eq_some.mp hs
      obtain ⟨service, hstep, rfl⟩ := Option.map_eq_some_iff.mp hs
      exact Machine.match_one hstep rfl
  | kill =>
    obtain ⟨-, hs⟩ := Option.ite_none_right_eq_some.mp hs
    cases hs
    exact Machine.match_none rfl
  | notice =>
    obtain ⟨-, hs⟩ := Option.ite_none_left_eq_some.mp hs
    obtain ⟨service, hstep, rfl⟩ := Option.map_eq_some_iff.mp hs
    exact Machine.match_one hstep rfl

/-! ### Pauses and deadlines -/

/-- Pauses are whole seconds, and no longer than half a minute. -/
theorem pauseMs_spec {s : Supervisor.State} (h : Supervisor.Inv s) :
    pauseMs s ≤ 30000 ∧ s.pause = 1000000 * pauseMs s := by
  unfold pauseMs
  rcases h.pause_eq with hzero | ⟨k, hk, hpause⟩
  · rw [hzero]
    decide
  · rw [hpause]
    unfold Supervisor.fromSecs
    omega

/-- Nothing that could move is kept waiting for longer than `late`: the supervisor after an exit and
after its sleep, and the watchdogs of a worker that is there. -/
def Timed.Punctual (late : ℕ) (s : Timed W) : Prop :=
  (s.service.supervisor.phase = .waiting → ∀ t ∈ s.down, s.now ≤ t + late) ∧
    (isIdle s.service.supervisor.phase = true → s.now ≤ s.wake + late) ∧
    ∀ w ∈ s.worker, w.loop.phase.isExited = false → w.Punctual late

instance (late : ℕ) : DecidablePred (Timed.Punctual (W := W) late) := fun s => by
  unfold Timed.Punctual
  infer_instance

/-- **What holds of the service** while nothing is kept waiting. -/
structure AvailabilityInv (late : ℕ) (cli : Cli) (json : SerdeJson) (lib : EdgefirstTflite W)
    (s : Timed W) : Prop where
  supervisor : Supervisor.Inv s.service.supervisor
  /-- An idle supervisor has no worker, and sleeps for no longer than the longest pause. -/
  idle : isIdle s.service.supervisor.phase = true → s.service.worker = none ∧
    ∃ t, s.down = some t ∧ s.wake ≤ t + late + 30000
  worker : ∀ w, s.worker = some w → w.loop.phase.isExited = false ∧
    DeadlineInv late cli json (tfliteBackend lib) w

namespace AvailabilityInv

theorem initial : AvailabilityInv late cli json lib .initial where
  supervisor := .initial
  idle _ := ⟨rfl, 0, rfl, Nat.zero_le _⟩
  worker _ h := by cases h

variable (h : AvailabilityInv late cli json lib s)
include h

/-- While there is a process, the supervisor waits for it. -/
theorem not_idle (hdown : s.down = none) : isIdle s.service.supervisor.phase = false := by
  by_contra hidle
  obtain ⟨-, t, ht, -⟩ := h.idle (Bool.of_not_eq_false hidle)
  rw [hdown] at ht
  cases ht

/-- A step while there is a process. -/
theorem working (hdown : s.down = none)
    (hsupervisor : s'.service.supervisor = s.service.supervisor)
    (hworker : ∀ w, s'.worker = some w → w.loop.phase.isExited = false ∧
      DeadlineInv late cli json (tfliteBackend lib) w) :
    AvailabilityInv late cli json lib s' := by
  refine ⟨hsupervisor ▸ h.supervisor, fun hidle => ?_, hworker⟩
  rw [hsupervisor, h.not_idle hdown] at hidle
  cases hidle

theorem supervised {e : Supervisor.Event} {supervisor : Supervisor.State} (he : e.runtime? = none)
    (hs : Supervisor.supervise.step s.service.supervisor e = some supervisor) :
    AvailabilityInv late cli json lib
      (s.supervised e { s.service with supervisor := supervisor }) := by
  have hinv := h.supervisor.step hs
  have hidle := h.idle
  rcases hsup : s.service.supervisor with ⟨phase, backoff, runtimes, sleeps⟩
  rw [hsup] at hs hidle
  cases e with
  | exited => cases he
  | spawned =>
    cases phase <;> cases hs
    refine ⟨hinv, (fun hwaiting => by cases hwaiting), fun w hw => ?_⟩
    have hsome : s.service.worker = some w := (Timed.worker_eq_some hw).2
    rw [(hidle rfl).1] at hsome
    cases hsome
  | located =>
    cases phase <;> cases hs
    exact ⟨hinv, fun _ => hidle rfl, h.worker⟩
  | currentExeFailed | spawnFailed | waitFailed =>
    cases phase <;> cases hs
    exact ⟨hinv, (fun hfailed => by cases hfailed), h.worker⟩

/-- **Every step of a punctual service keeps the invariant.** -/
theorem step (hp : s.Punctual late) (hs : (timed cli json lib).step s a = some s') :
    AvailabilityInv late cli json lib s' := by
  cases timed_step_cases hs with
  | @tick w w' ms hworker hw =>
    obtain ⟨hrun, hdeadline⟩ := h.worker w hworker
    refine h.working (Timed.worker_eq_some hworker).1 rfl fun w'' hw'' => ?_
    cases (Timed.worker_eq_some hw'').2
    refine ⟨?_, hdeadline.step (hp.2.2 w hworker hrun) hw⟩
    obtain ⟨-, hstep⟩ := system_step_cases hw
    cases hstep
    exact hrun
  | wait ms hworker => exact ⟨h.supervisor, h.idle, h.worker⟩
  | supervisor he _ hsup => exact h.supervised he hsup
  | enter hdown hboot =>
    refine h.working hdown rfl fun w hw => ?_
    cases (Timed.worker_eq_some hw).2
    exact ⟨rfl, .initial _ _⟩
  | @worker w w' a hworker hw =>
    obtain ⟨hrun, hdeadline⟩ := h.worker w hworker
    refine h.working (Timed.worker_eq_some hworker).1 rfl fun w'' hw'' => ?_
    obtain ⟨hdown, hsome⟩ := Timed.worker_eq_some hw''
    cases hsome
    refine ⟨?_, hdeadline.step (hp.2.2 w hworker hrun) hw⟩
    by_contra hexit
    simp [Timed.stepped, hexit] at hdown
  | kill hdown => exact h.working hdown rfl fun w hw => by cases hw
  | @notice t supervisor hdown hsup =>
    obtain ⟨hphase, rfl⟩ := Supervisor.step_exited hsup
    have hinv := h.supervisor.step hsup
    refine ⟨hinv, fun _ => ⟨rfl, t, hdown, ?_⟩, fun w hw => ?_⟩
    · have hnow := hp.1 hphase t hdown
      have hpause := (pauseMs_spec hinv).1
      show s.now + pauseMs (s.service.supervisor.exited s.runtime) ≤ t + late + 30000
      omega
    · obtain ⟨hnone, -⟩ := Timed.worker_eq_some hw
      rw [hdown] at hnone
      cases hnone

end AvailabilityInv

/-- **The service stays available for inference.** In a run in which nothing is kept waiting for longer
than `late`, there is no time without a worker that is longer than half a minute, but for twice
`late`, unless the supervisor gives up; a worker in its loop is in no guarded call for longer than the
timeout of the command line, and, in its first `2 ^ 64` requests and with a limit on the time without
progress, in no inference request for longer than this limit and the time between two checks. A model
transfer is neither. -/
theorem availability (hp : (timed cli json lib).Always (Timed.Punctual late) .initial acts)
    (h : (timed cli json lib).exec .initial acts = some s) :
    (∀ t, s.down = some t → (∀ e, s.service.supervisor.phase ≠ .failed e) →
      s.now ≤ t + 30000 + 2 * late) ∧
    ∀ w, s.worker = some w →
      (∀ i c, w.guarded.guard = some i → w.guarded.process.calls[i]? = some c →
        w.guarded.process.clock ≤ c.armedAt + cli.inferenceTimeoutMs + 2 * late) ∧
      ((starts w.loop.calls).length < 2 ^ 64 → 0 < cli.maxNoProgressSecs →
        ∀ t, openStart w.loop.calls = some t →
          w.loop.clock < t + 1 + 1000 * cli.maxNoProgressSecs + (5000 + 2 * late)) := by
  obtain ⟨hinv, hwait, hidle, hworker⟩ := Machine.exec_invariant_of_always
    (I := AvailabilityInv late cli json lib) (fun _ _ _ hI hp _ hs => hI.step hp hs) .initial hp h
  refine ⟨fun t hdown hphase => ?_, fun w hw => ?_⟩
  · have hbetween : isIdle s.service.supervisor.phase = true → s.now ≤ t + 30000 + 2 * late := by
      intro hi
      obtain ⟨-, t', hdown', hwake⟩ := hinv.idle hi
      have hnow := hidle hi
      cases hdown.symm.trans hdown'
      omega
    cases hp : s.service.supervisor.phase with
    | starting | spawning => exact hbetween (by rw [hp]; rfl)
    | waiting =>
      have hnow := hwait hp t hdown
      omega
    | failed e => exact absurd hp (hphase e)
  · obtain ⟨hrun, hdeadline⟩ := hinv.worker w hw
    have hpunctual := hworker w hw hrun
    exact ⟨fun i c hi hc => hdeadline.call_le hpunctual hi hc,
      fun hcount hN t ht => hdeadline.inFlight_lt hpunctual hrun hcount hN ht⟩

/-- An inference that hangs, the end of its worker, the exit that the supervisor learns of half a
second later, and its first pause, which it outsleeps. -/
def recovery : List (TimedAct Unit) :=
  [.supervisor .located, .supervisor .spawned, .enter () warmedUp] ++
    (hungRun.map fun
      | .tick ms => .tick ms
      | a => .worker a) ++
    [.worker .thread, .tick 500, .notice, .tick 1500]

/-- That service is without a worker for two seconds. -/
theorem availability_recovery :
    ∃ s t, (timed cpuCli transferJson smallTflite).exec .initial recovery = some s ∧
      s.down = some t ∧ s.now = t + 2000 ∧ s.now ≤ t + 30000 + 2 * 1000 := by
  have hpunctual : (timed cpuCli transferJson smallTflite).Always (Timed.Punctual 1000)
      .initial recovery := by decide +kernel
  have hrun : ((timed cpuCli transferJson smallTflite).exec .initial recovery).any (fun s =>
      s.service.supervisor.phase = .spawning ∧ s.down.any (fun t => s.now = t + 2000)) = true := by
    decide +kernel
  obtain ⟨s, hs, htest⟩ := (Option.any_eq_true ..).mp hrun
  obtain ⟨hphase, hany⟩ := of_decide_eq_true htest
  obtain ⟨t, ht, hnow⟩ := (Option.any_eq_true ..).mp hany
  refine ⟨s, t, hs, ht, of_decide_eq_true hnow, (availability hpunctual hs).1 t ht fun e he => ?_⟩
  rw [hphase] at he
  cases he

/-! ### Messages without a reply, by the clock -/

/-- The runs and pauses of the supervisor fit into the time. -/
structure SpentInv (s : Timed W) : Prop where
  supervisor : Supervisor.Inv s.service.supervisor
  spent : s.service.supervisor.elapsed ≤ 1000000 * max s.wake s.spawnedAt
  wake : s.wake ≤ s.now + 30000
  spawned : s.spawnedAt ≤ s.now
  waiting : s.service.supervisor.phase = .waiting → s.wake ≤ s.spawnedAt

namespace SpentInv

variable (h : SpentInv s)
include h

theorem supervised {e : Supervisor.Event} {supervisor : Supervisor.State} (he : e.runtime? = none)
    (hwake : isIdle s.service.supervisor.phase = true → s.wake ≤ s.now)
    (hs : Supervisor.supervise.step s.service.supervisor e = some supervisor) :
    SpentInv (s.supervised e { s.service with supervisor := supervisor }) := by
  have hinv := h.supervisor.step hs
  have hspent : supervisor.elapsed ≤ 1000000 * max s.wake s.spawnedAt := by
    rw [Supervisor.step_elapsed he hs]
    exact h.spent
  rcases hsup : s.service.supervisor with ⟨phase, backoff, runtimes, sleeps⟩
  rw [hsup] at hs hwake
  cases e with
  | exited => cases he
  | spawned =>
    cases phase <;> cases hs
    have hwake := hwake rfl
    have hspawned := h.spawned
    refine ⟨hinv, hspent.trans (Nat.mul_le_mul_left _ ?_), h.wake, le_rfl, fun _ => hwake⟩
    exact max_le (le_max_of_le_right hwake) (le_max_of_le_right hspawned)
  | located | currentExeFailed | spawnFailed | waitFailed =>
    cases phase <;> cases hs
    exact ⟨hinv, hspent, h.wake, h.spawned, fun hwaiting => by cases hwaiting⟩

theorem step (hs : (timed cli json lib).step s a = some s') : SpentInv s' := by
  cases timed_step_cases hs with
  | tick ms | wait ms =>
    exact ⟨h.supervisor, h.spent, h.wake.trans (Nat.add_le_add_right (Nat.le_add_right _ _) _),
      Nat.le_add_right_of_le h.spawned, h.waiting⟩
  | enter | worker | kill => exact ⟨h.supervisor, h.spent, h.wake, h.spawned, h.waiting⟩
  | supervisor he hwake hsup => exact h.supervised he hwake hsup
  | @notice t supervisor hdown hsup =>
    obtain ⟨hphase, rfl⟩ := Supervisor.step_exited hsup
    have hinv := h.supervisor.step hsup
    obtain ⟨hpause, hmillis⟩ := pauseMs_spec hinv
    have hspawned := h.spawned
    have hwaiting := h.waiting hphase
    have hspent := h.spent
    have helapsed := s.service.supervisor.exited_elapsed s.runtime
    rw [hmillis] at helapsed
    unfold Timed.runtime at *
    refine ⟨hinv, ?_, Nat.add_le_add_left hpause _, h.spawned, fun hwaiting' => ?_⟩
    · dsimp only
      rw [helapsed]
      omega
    · have hspawning := s.service.supervisor.exited_phase (1000000 * (s.now - s.spawnedAt))
      exact absurd (hspawning.symm.trans hwaiting') (by decide)

end SpentInv

/-- **Messages without a reply are rare**, by the clock: those for which no reply is handed to the
socket are at most five more than one for every fifteen seconds. -/
theorem lost_by_now (h : (timed cli json lib).exec .initial acts = some s) :
    15000 * s.service.lost ≤ s.now + 75000 := by
  have hinitial : SpentInv (.initial : Timed W) := ⟨.initial, le_rfl, Nat.zero_le _, le_rfl, nofun⟩
  have hspent := Machine.exec_invariant (fun _ _ _ hI hs => hI.step hs) hinitial h
  obtain ⟨acts', t, ht, rfl⟩ := timed_simulates.exec rfl h
  have hpaid := (Supervisor.Inv.initial.exec_paid (exec_supervisor ht)).2
  have hlost := lost_le (Machine.exec_nil ..) ht
  have hcredit := Supervisor.State.initial.credit_le
  have hzero : (State.initial : State W).lost = 0 := rfl
  have hmax : max s.wake s.spawnedAt ≤ s.now + 30000 :=
    max_le hspent.wake (Nat.le_add_right_of_le hspent.spawned)
  have hclock := hspent.spent.trans (Nat.mul_le_mul_left _ hmax)
  unfold Supervisor.fromSecs at hpaid hcredit
  omega

/-- The inference that hung is lost. -/
theorem lost_by_now_recovery :
    ∃ s, (timed cpuCli transferJson smallTflite).exec .initial recovery = some s ∧
      s.service.lost = 1 ∧ 15000 * 1 ≤ s.now + 75000 := by
  have hrun : ((timed cpuCli transferJson smallTflite).exec .initial recovery).any
      (fun s => s.service.lost = 1) = true := by decide +kernel
  obtain ⟨s, hs, hlost⟩ := (Option.any_eq_true ..).mp hrun
  have hone : s.service.lost = 1 := of_decide_eq_true hlost
  exact ⟨s, hs, hone, hone ▸ lost_by_now hs⟩

end FrigateZmqDetector.Service
