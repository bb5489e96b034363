import Mathlib.Algebra.Order.BigOperators.Group.List
import Mathlib.Algebra.Order.Ring.Nat
import FrigateZmqDetector.Supervisor
import FrigateZmqDetector.Worker.Agreement
import FrigateZmqDetector.Worker.System

/-!
# The service

The supervisor and its workers, one after the other. A worker may go at any moment, by itself or
because it is killed, and takes with it what it knew: the next one starts from the command line and
a new process. Two things hold of the service all the same. Messages for which no reply is handed to
the socket are as rare as restarts (`unanswered_rate`), and with a model file the clients are told
the same about it by all workers (`file_model`).
-/

namespace FrigateZmqDetector.Service

open Lib Protocol Tflite Watchdog Worker

variable {W : Type}

structure State (W : Type) where
  supervisor : Supervisor.State
  /-- The worker, once it is in its loop. -/
  worker : Option (System (TfliteState W))
  /-- The workers before, as they were when they went. -/
  gone : List (System (TfliteState W))

/-- Who moves: the supervisor, a worker that enters its loop, with the native library as its process
finds it and the process watchdog as its warmups leave it, or the worker in its loop. -/
inductive Act (W : Type) where
  | supervisor (e : Supervisor.Event)
  | enter (native : W) (watchdog : Idle)
  | worker (a : SystemAct)

namespace State

def initial : State W := ⟨.initial, none, []⟩

/-- All workers that got to their loop. -/
def workers (s : State W) : List (System (TfliteState W)) := s.gone ++ s.worker.toList

/-- An exit takes the worker away. -/
def supervised (s : State W) (e : Supervisor.Event) (supervisor : Supervisor.State) : State W :=
  match e with
  | .exited _ => ⟨supervisor, none, s.workers⟩
  | _ => { s with supervisor := supervisor }

end State

/-- **The service.** What ends a worker before its loop, and what kills one, shows in the exit that
the supervisor waits for. -/
def service (cli : Cli) (json : SerdeJson) (lib : EdgefirstTflite W) :
    Machine (State W) (Act W) where
  step s a :=
    match a with
    | .supervisor e => (Supervisor.supervise.step s.supervisor e).map (s.supervised e)
    | .enter native watchdog =>
      if s.supervisor.phase = .waiting ∧ s.worker.isNone ∧ (validateConfig cli).isOk then
        match (startup (tfliteBackend lib) cli).run ⟨selectBackend cli, native⟩ with
        | (.ok (), backend) => some { s with worker := some (.initial cli backend watchdog) }
        | _ => none
      else none
    | .worker a => s.worker.bind fun w =>
      ((system cli json (tfliteBackend lib)).step w a).map fun w' => { s with worker := some w' }

/-- The part of the supervisor in a run. -/
def Act.event? : Act W → Option Supervisor.Event
  | .supervisor e => some e
  | _ => none

/-- What a step of the service is. -/
inductive Step (cli : Cli) (json : SerdeJson) (lib : EdgefirstTflite W) (s : State W) :
    Act W → State W → Prop
  | supervisor {e : Supervisor.Event} {supervisor : Supervisor.State}
    (h : Supervisor.supervise.step s.supervisor e = some supervisor) :
    Step cli json lib s (.supervisor e) (s.supervised e supervisor)
  | enter {native : W} {watchdog : Idle} {backend : TfliteState W} (hworker : s.worker = none)
    (h : (startup (tfliteBackend lib) cli).run ⟨selectBackend cli, native⟩ = (.ok (), backend)) :
    Step cli json lib s (.enter native watchdog)
      { s with worker := some (.initial cli backend watchdog) }
  | worker {w w' : System (TfliteState W)} {a : SystemAct} (hworker : s.worker = some w)
    (h : (system cli json (tfliteBackend lib)).step w a = some w') :
    Step cli json lib s (.worker a) { s with worker := some w' }

variable {cli : Cli} {json : SerdeJson} {lib : EdgefirstTflite W} {s s' : State W} {a : Act W}
  {acts acts' : List (Act W)} {w : System (TfliteState W)}

theorem service_step_cases (hs : (service cli json lib).step s a = some s') :
    Step cli json lib s a s' := by
  cases a with
  | supervisor e =>
    obtain ⟨supervisor, h, rfl⟩ := Option.map_eq_some_iff.mp hs
    exact .supervisor h
  | enter native watchdog =>
    obtain ⟨⟨-, hworker, -⟩, h⟩ := Option.ite_none_right_eq_some.mp hs
    split at h
    · cases h
      exact .enter (Option.isNone_iff_eq_none.mp hworker) ‹_›
    · cases h
  | worker a =>
    obtain ⟨w, hworker, h⟩ := Option.bind_eq_some_iff.mp hs
    obtain ⟨w', hw, rfl⟩ := Option.map_eq_some_iff.mp h
    exact .worker hworker hw

/-! ### The parts of a run -/

theorem State.supervised_supervisor (e : Supervisor.Event) (supervisor : Supervisor.State) :
    (s.supervised e supervisor).supervisor = supervisor := by
  cases e <;> rfl

theorem State.supervised_workers (e : Supervisor.Event) (supervisor : Supervisor.State) :
    (s.supervised e supervisor).workers = s.workers := by
  cases e with
  | exited => exact List.append_nil _
  | _ => rfl

/-- **The supervisor does not look at its workers**: its part of a run is a run of its own. -/
theorem exec_supervisor (h : (service cli json lib).exec s acts = some s') :
    Supervisor.supervise.exec s.supervisor (acts.filterMap Act.event?) = some s'.supervisor := by
  refine Machine.exec_induction (I := fun acts s' =>
    Supervisor.supervise.exec s.supervisor (acts.filterMap Act.event?) = some s'.supervisor)
    (fun acts m a m' hI hs => ?_) rfl h
  rw [List.filterMap_append, Machine.exec_append, hI, Option.bind_some]
  cases service_step_cases hs with
  | supervisor h =>
    rw [State.supervised_supervisor]
    exact Machine.exec_cons_eq_some.mpr ⟨_, h, rfl⟩
  | enter | worker => rfl

/-- A worker that came from the command line and a new process. -/
def Lived (cli : Cli) (json : SerdeJson) (lib : EdgefirstTflite W)
    (w : System (TfliteState W)) : Prop :=
  ∃ native watchdog backend acts,
    (startup (tfliteBackend lib) cli).run ⟨selectBackend cli, native⟩ = (.ok (), backend) ∧
      (system cli json (tfliteBackend lib)).exec (.initial cli backend watchdog) acts = some w

/-- **Every worker starts anew**, and what it does is a run of the worker alone. -/
theorem exec_lived (h : (service cli json lib).exec .initial acts = some s) :
    ∀ w ∈ s.workers, Lived cli json lib w := by
  refine Machine.exec_invariant (I := fun s => ∀ w ∈ s.workers, Lived cli json lib w)
    (fun s a s' hI hs => ?_) (fun w hw => by cases hw) h
  cases service_step_cases hs with
  | supervisor =>
    rw [State.supervised_workers]
    exact hI
  | enter hworker hboot =>
    have hgone := (List.forall_mem_append.mp hI).1
    refine List.forall_mem_append.mpr ⟨hgone, List.forall_mem_singleton.mpr ?_⟩
    exact ⟨_, _, _, [], hboot, rfl⟩
  | @worker w w' a hworker hw =>
    obtain ⟨hgone, hlived⟩ := List.forall_mem_append.mp hI
    rw [hworker] at hlived
    obtain ⟨native, watchdog, backend, acts, hboot, hrun⟩ := hlived w List.mem_cons_self
    refine List.forall_mem_append.mpr ⟨hgone, List.forall_mem_singleton.mpr ?_⟩
    exact ⟨native, watchdog, backend, acts ++ [a], hboot, Machine.exec_snoc.mpr ⟨w, hrun, hw⟩⟩

/-- What has been told by a worker, and what is left of its last message. -/
theorem Lived.told (h : Lived cli json lib w) :
    ∃ pending, w.loop.received = w.loop.exchanges.map Prod.fst ++ Option.toList pending ∧
      w.loop.sent.length = w.loop.exchanges.length ∧
      ∀ x ∈ w.loop.exchanges, ToldFile json cli x := by
  obtain ⟨native, watchdog, backend, acts, hboot, hrun⟩ := h
  obtain ⟨events, w', hw', hmatch⟩ := exec_matches hrun
  obtain ⟨xs, pending, ht⟩ := (exec_agreement hboot hw').told
  have hexchanges : w.loop.exchanges = xs := by
    rw [State.exchanges, ← hmatch.received_eq, ← hmatch.sent_eq]
    exact ht.exchanges
  have hsent := congrArg List.length ht.sent
  rw [List.length_map, List.length_map, hmatch.sent_eq] at hsent
  rw [hexchanges]
  exact ⟨pending, hmatch.received_eq ▸ ht.received, hsent, ht.file⟩

/-! ### Messages without a reply -/

/-- The messages that a worker has received and for which it has handed no reply to the socket. What
becomes of a reply that the socket has does not count. -/
def unanswered (w : System (TfliteState W)) : ℕ := w.loop.received.length - w.loop.sent.length

/-- Those of the workers that are gone. -/
def State.lost (s : State W) : ℕ := (s.gone.map unanswered).sum

theorem Lived.sent_le (h : Lived cli json lib w) : w.loop.sent.length ≤ w.loop.received.length := by
  obtain ⟨pending, hreceived, hsent, -⟩ := h.told
  rw [hreceived, hsent, List.length_append, List.length_map]
  exact Nat.le_add_right _ _

theorem Lived.unanswered_le (h : Lived cli json lib w) : unanswered w ≤ 1 := by
  obtain ⟨pending, hreceived, hsent, -⟩ := h.told
  unfold unanswered
  rw [hreceived, hsent, List.length_append, List.length_map]
  cases pending <;> simp

/-- Workers go one at a time, and the supervisor sees every one of them go. -/
theorem gone_of_exec (h : (service cli json lib).exec s acts = some s') :
    ∃ gone, s'.gone = s.gone ++ gone ∧ gone.length ≤
      ((acts.filterMap Act.event?).filterMap Supervisor.Event.runtime?).length := by
  refine Machine.exec_induction (I := fun acts s' => ∃ gone, s'.gone = s.gone ++ gone ∧
    gone.length ≤ ((acts.filterMap Act.event?).filterMap Supervisor.Event.runtime?).length)
    (fun acts m a m' hI hs => ?_) ⟨[], (List.append_nil _).symm, le_rfl⟩ h
  obtain ⟨gone, hgone, hle⟩ := hI
  rw [List.filterMap_append, List.filterMap_append, List.length_append]
  cases service_step_cases hs with
  | @supervisor e supervisor he =>
    cases e with
    | exited runtime =>
      refine ⟨gone ++ m.worker.toList, ?_, ?_⟩
      · show m.gone ++ m.worker.toList = _
        rw [hgone, List.append_assoc]
      · rw [List.length_append]
        exact Nat.add_le_add hle (Option.length_toList_le ..)
    | _ => exact ⟨gone, hgone, Nat.le_add_right_of_le hle⟩
  | enter | worker => exact ⟨gone, hgone, Nat.le_add_right_of_le hle⟩

theorem lost_le (h : (service cli json lib).exec .initial acts = some s)
    (h' : (service cli json lib).exec s acts' = some s') : s'.lost ≤
      s.lost + ((acts'.filterMap Act.event?).filterMap Supervisor.Event.runtime?).length := by
  obtain ⟨gone, hgone, hle⟩ := gone_of_exec h'
  have hrun : (service cli json lib).exec .initial (acts ++ acts') = some s' := by
    rw [Machine.exec_append, h, Option.bind_some, h']
  have hone : ∀ n ∈ gone.map unanswered, n ≤ 1 := by
    intro n hn
    obtain ⟨w, hw, rfl⟩ := List.mem_map.mp hn
    refine (exec_lived hrun w (List.mem_append_left _ ?_)).unanswered_le
    rw [hgone]
    exact List.mem_append_right _ hw
  have hsum := List.sum_le_card_nsmul _ _ hone
  rw [List.length_map, nsmul_one, Nat.cast_id] at hsum
  unfold State.lost
  rw [hgone, List.map_append, List.sum_append]
  omega

/-- **Messages without a reply are rare.** From any state of any run of the service on, the workers that
go leave at most one message each without a reply handed to the socket, and in all at most three more
than one for every fifteen seconds of runs and pauses. -/
theorem unanswered_rate (h : (service cli json lib).exec .initial acts = some s)
    (h' : (service cli json lib).exec s acts' = some s') :
    (∀ w ∈ s.workers, w.loop.sent.length ≤ w.loop.received.length ∧ unanswered w ≤ 1) ∧
      s.supervisor.elapsed + Supervisor.fromSecs 15 * s'.lost ≤
        s'.supervisor.elapsed + Supervisor.fromSecs 15 * s.lost + Supervisor.fromSecs 45 := by
  refine ⟨fun w hw => ⟨(exec_lived h w hw).sent_le, (exec_lived h w hw).unanswered_le⟩, ?_⟩
  obtain ⟨-, hpaid⟩ := (Supervisor.exec_inv (exec_supervisor h)).exec_paid (exec_supervisor h')
  have hcredit := s.supervisor.credit_le
  have hlost := Nat.mul_le_mul_left (Supervisor.fromSecs 15) (lost_le h h')
  rw [Nat.mul_add] at hlost
  omega

/-- A worker that the process watchdog ends over an inference that hangs. -/
def lostRun : List (Act Unit) :=
  .supervisor .located :: .supervisor .spawned :: .enter () warmedUp :: hungRun.map .worker ++
    [.worker .thread, .supervisor (.exited (Supervisor.fromSecs 6))]

/-- It leaves that inference without a reply. -/
theorem unanswered_rate_hung :
    ∃ s : State Unit, (service cpuCli transferJson smallTflite).exec .initial lostRun = some s ∧
      s.lost = 1 ∧
      Supervisor.fromSecs 15 * 1 ≤ s.supervisor.elapsed + Supervisor.fromSecs 45 := by
  have hrun : ((service cpuCli transferJson smallTflite).exec .initial lostRun).any
      (fun s => s.lost = 1) = true := by decide
  obtain ⟨s, hs, hlost⟩ := (Option.any_eq_true ..).mp hrun
  have hrate := (unanswered_rate (Machine.exec_nil ..) hs).2
  have hone : s.lost = 1 := of_decide_eq_true hlost
  have hzero : (State.initial : State Unit).lost = 0 := rfl
  rw [hone, hzero, Nat.mul_zero, Nat.add_zero] at hrate
  exact ⟨s, hs, hone, (Nat.le_add_left ..).trans hrate⟩

/-! ### The model of the file -/

/-- All exchanges with all workers. -/
def State.exchanges (s : State W) : List Exchange := s.workers.flatMap fun w => w.loop.exchanges

/-- **With a model file, all workers tell the same**, whatever clients send and however often workers
go: a client is told that its model is loaded if and only if it names that of the file. -/
theorem file_model {data : Bytes} {name : Option String} (hfile : fileModel cli = some (data, name))
    (h : (service cli json lib).exec .initial acts = some s) :
    ∀ x ∈ s.exchanges,
      (TellsLoaded json x ↔ classifyMessage json x.1 = true ∧ name = some (nameOf json x.1)) := by
  intro x hx
  obtain ⟨w, hw, hx⟩ := List.mem_flatMap.mp hx
  obtain ⟨-, -, -, htold⟩ := (exec_lived h w hw).told
  exact htold x hx _ hfile

/-- A new worker that answers one message. -/
def life (msg : ZmqMessage) : List (Act Unit) :=
  [.supervisor .spawned, .enter () warmedUp, .worker (.loop (.recv msg)), .worker (.loop .start),
    .worker .dispatch, .worker (.loop (.send .ok)), .worker (.loop .update),
    .supervisor (.exited 0)]

/-- Two workers, and only the client that names the model of the file is told that it is loaded. -/
theorem file_model_two :
    ∃ s x y, (service fileCli transferJson smallTflite).exec .initial
        (.supervisor .located :: life [transferHeader "yolo", [2]] ++
          life [transferHeader "ssd.tflite", [3]]) = some s ∧
      s.exchanges = [x, y] ∧ ¬ TellsLoaded transferJson x ∧ TellsLoaded transferJson y := by
  have hrun : ((service fileCli transferJson smallTflite).exec .initial
      (.supervisor .located :: life [transferHeader "yolo", [2]] ++
        life [transferHeader "ssd.tflite", [3]])).any (fun s => s.exchanges.map Prod.fst =
          [[transferHeader "yolo", [2]], [transferHeader "ssd.tflite", [3]]]) = true := by decide
  obtain ⟨s, hs, htest⟩ := (Option.any_eq_true ..).mp hrun
  obtain ⟨x, xs, hxs, hx, hrest⟩ := List.map_eq_cons_iff.mp (of_decide_eq_true htest)
  obtain ⟨y, ys, rfl, hy, hnil⟩ := List.map_eq_cons_iff.mp hrest
  obtain rfl := List.map_eq_nil_iff.mp hnil
  have hfile : fileModel fileCli = some ([1], some "ssd.tflite") := rfl
  have htold := file_model hfile hs
  rw [hxs] at htold
  refine ⟨s, x, y, hs, hxs, fun hl => ?_, (htold y (by simp)).mpr ?_⟩
  · have hname := ((htold x (by simp)).mp hl).2
    rw [hx] at hname
    exact absurd hname (by decide)
  · rw [hy]
    decide

end FrigateZmqDetector.Service
