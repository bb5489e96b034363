import FrigateZmqDetector.Protocol.Handlers
import FrigateZmqDetector.Watchdog.History
import FrigateZmqDetector.Watchdog.Process
import FrigateZmqDetector.Worker.Startup

/-!
# The request loop

`zmq_rep_loop` and its monitor task as a machine, for any backend. The loop goes from phase to
phase: it receives a message, counts it if it is an inference request, dispatches it, sends the
reply and updates the progress watchdog. An event carries what the worker does not decide: the
message, the fate of a `recv` or a `send`, the time that passes, a tick of the monitor, and the
process watchdog ending a native call.

The calls to the progress watchdog are single steps here; `Watchdog.Interleaving` looks inside
them. `received`, `sent` and `calls` record the past and steer nothing.
-/

namespace FrigateZmqDetector.Worker

open Lib Lib.Eff Protocol Watchdog

inductive CheckSite where
  | recvTimeout | recvError | monitor
  deriving DecidableEq, Repr

inductive Cause where
  | recycled
  | watchdog (site : CheckSite) (reason : Reason)
  | nativeTimeout
  | panic
  deriving DecidableEq, Repr

/-- The exit code of a Rust process that panics. -/
def exitCodePanic : Int32 := 101

/-- Where the loop is. A message being answered comes with the state `before` of the backend in
which it was dispatched, which only the statements about the loop look at. -/
inductive Phase (σ : Type) where
  | receiving
  | received (msg : ZmqMessage)
  | dispatching (msg : ZmqMessage)
  | sending (msg : ZmqMessage) (before : σ) (reply : Reply)
  | updating (msg : ZmqMessage) (before : σ) (sendOk : Bool)
  | exited (code : Int32) (cause : Cause)

def Phase.isExited {σ : Type} : Phase σ → Bool
  | .exited .. => true
  | _ => false

/-- A reply that was sent, and the state of the backend in which its message was dispatched. -/
structure Sent (σ : Type) where
  before : σ
  reply : Reply

structure State (σ : Type) where
  backend : σ
  health : ProgressWatchdog
  clock : ℕ
  recvErrors : ℕ
  phase : Phase σ
  received : List ZmqMessage
  sent : List (Sent σ)
  calls : List Call

inductive SendOutcome where
  | ok | failed | timedOut
  deriving DecidableEq, Repr

inductive Event where
  | tick (ms : ℕ)
  | recv (msg : ZmqMessage)
  | recvTimeout
  | recvError
  | start
  | dispatch
  | send (outcome : SendOutcome)
  | update
  | monitor
  | nativeTimeout
  deriving DecidableEq, Repr

/-- The sleep after a `recv` error, by the number of errors in a row. -/
def recvBackoffMs (consecutive : ℕ) : ℕ := if 2 < consecutive then min consecutive 2000 else 0

namespace State

variable {σ : Type} (w : State σ)

/-- A worker that enters the loop. -/
def initial (cli : Cli) (backend : σ) : State σ where
  backend := backend
  health := .new cli.maxNoProgressSecs cli.maxRequests cli.maxLifetimeSecs
  clock := 0
  recvErrors := 0
  phase := .receiving
  received := []
  sent := []
  calls := []

/-- A check of the progress watchdog: a reason ends the process. -/
def check (site : CheckSite) : State σ :=
  match w.health.check w.clock with
  | (some reason, health) =>
    { w with health := health, phase := .exited exitCodeNoProgress (.watchdog site reason) }
  | (none, health) => { w with health := health }

def recv (msg : ZmqMessage) : State σ :=
  { w with recvErrors := 0, phase := .received msg, received := w.received ++ [msg] }

/-- Sleep after an error of `recv`, and check. -/
def handleRecvError : State σ :=
  let consecutive := (w.recvErrors + 1) % 2 ^ 32
  { w with recvErrors := consecutive, clock := w.clock + recvBackoffMs consecutive }.check .recvError

/-- An inference request is counted before it is dispatched. -/
def start (json : SerdeJson) (msg : ZmqMessage) : State σ :=
  if classifyMessage json msg then { w with phase := .dispatching msg }
  else { w with
    phase := .dispatching msg
    health := w.health.requestStart w.clock
    calls := w.calls ++ [.requestStart w.clock] }

/-- The message is handed to its handler. A panic, or an error that no reply covers, ends the
process. -/
def dispatched (json : SerdeJson) (b : DetectorBackend σ) (msg : ZmqMessage) : State σ :=
  match (dispatch json b msg).run w.backend with
  | (.ok reply, backend) => { w with backend := backend, phase := .sending msg w.backend reply }
  | (_, backend) => { w with backend := backend, phase := .exited exitCodePanic .panic }

/-- The reply is sent, and what became of it. -/
def send (msg : ZmqMessage) (before : σ) (reply : Reply) (outcome : SendOutcome) : State σ :=
  { w with
    sent := w.sent ++ [⟨before, reply⟩]
    phase := .updating msg before (outcome = .ok) }

/-- The progress watchdog is told about an inference request. A success may be the last one of this
process. -/
def update (json : SerdeJson) (msg : ZmqMessage) (sendOk : Bool) : State σ :=
  if classifyMessage json msg then { w with phase := .receiving }
  else if sendOk then
    { w with
      health := w.health.responseOk w.clock
      calls := w.calls ++ [.responseOk w.clock]
      phase := match w.health.responseOkExit with
        | some code => .exited code .recycled
        | none => .receiving }
  else
    { w with
      health := w.health.responseErr w.clock
      calls := w.calls ++ [.responseErr w.clock]
      phase := .receiving }

end State

/-- **The request loop.** -/
def loop {σ : Type} (cli : Cli) (json : SerdeJson) (b : DetectorBackend σ) :
    Machine (State σ) Event where
  step w e :=
    match w.phase, e with
    | .exited .., _ => none
    | _, .tick ms => some { w with clock := w.clock + ms }
    | _, .monitor => if w.health.isEnabled then some (w.check .monitor) else none
    | .receiving, .recv msg => some (w.recv msg)
    | .receiving, .recvTimeout =>
      if cli.recvTimeoutSecs = 0 then none else some (w.check .recvTimeout)
    | .receiving, .recvError => some w.handleRecvError
    | .received msg, .start => some (w.start json msg)
    | .dispatching msg, .dispatch => some (w.dispatched json b msg)
    | .dispatching msg, .nativeTimeout =>
      -- only a run of the backend is guarded
      if 0 < cli.inferenceTimeoutMs ∧ classifyMessage json msg = false ∧ 2 ≤ msg.length ∧
          b.isReady w.backend = true then
        some { w with phase := .exited exitCodeNativeTimeout .nativeTimeout }
      else none
    | .sending msg before reply, .send outcome =>
      if outcome = .timedOut ∧ cli.sendTimeoutSecs = 0 then none
      else some (w.send msg before reply outcome)
    | .updating msg _ sendOk, .update => some (w.update json msg sendOk)
    | _, _ => none

inductive Step {σ : Type} (cli : Cli) (json : SerdeJson) (b : DetectorBackend σ) (w : State σ) :
    Event → State σ → Prop
  | tick (ms : ℕ) (h : w.phase.isExited = false) :
    Step cli json b w (.tick ms) { w with clock := w.clock + ms }
  | monitor (h : w.phase.isExited = false) : Step cli json b w .monitor (w.check .monitor)
  | recv (msg : ZmqMessage) (h : w.phase = .receiving) : Step cli json b w (.recv msg) (w.recv msg)
  | recvTimeout (h : w.phase = .receiving) : Step cli json b w .recvTimeout (w.check .recvTimeout)
  | recvError (h : w.phase = .receiving) : Step cli json b w .recvError w.handleRecvError
  | start {msg : ZmqMessage} (h : w.phase = .received msg) :
    Step cli json b w .start (w.start json msg)
  | dispatch {msg : ZmqMessage} (h : w.phase = .dispatching msg) :
    Step cli json b w .dispatch (w.dispatched json b msg)
  | nativeTimeout {msg : ZmqMessage} (h : w.phase = .dispatching msg) :
    Step cli json b w .nativeTimeout
      { w with phase := .exited exitCodeNativeTimeout .nativeTimeout }
  | send {msg : ZmqMessage} {before : σ} {reply : Reply} (outcome : SendOutcome)
    (h : w.phase = .sending msg before reply) :
    Step cli json b w (.send outcome) (w.send msg before reply outcome)
  | update {msg : ZmqMessage} {before : σ} {sendOk : Bool}
    (h : w.phase = .updating msg before sendOk) :
    Step cli json b w .update (w.update json msg sendOk)

variable {σ : Type} {cli : Cli} {json : SerdeJson} {b : DetectorBackend σ} {w w' : State σ}
  {e : Event}

/-- A check finds nothing and changes nothing, or has a reason and ends the process. -/
theorem State.check_cases (w : State σ) (site : CheckSite) :
    ((w.health.check w.clock).1 = none ∧ w.check site = w) ∨
      ∃ reason, (w.health.check w.clock).1 = some reason ∧ w.check site = { w with
        health := { w.health with fired := true }
        phase := .exited exitCodeNoProgress (.watchdog site reason) } := by
  unfold State.check
  rcases hc : w.health.check w.clock with ⟨_ | reason, health⟩
  · have hsame : health = w.health := by
      rw [← ProgressWatchdog.check_snd_of_none (congrArg Prod.fst hc), hc]
    subst hsame
    exact Or.inl ⟨rfl, rfl⟩
  · have hfired : health = { w.health with fired := true } := by
      have hsnd := ProgressWatchdog.check_snd (w := w.health) (n := w.clock)
      rwa [hc, Option.isSome_some, Bool.or_true] at hsnd
    subst hfired
    exact Or.inr ⟨reason, rfl, rfl⟩

@[simp] theorem State.check_backend (site : CheckSite) : (w.check site).backend = w.backend := by
  rcases w.check_cases site with ⟨-, hw⟩ | ⟨reason, -, hw⟩ <;> rw [hw]

@[simp] theorem State.check_calls (site : CheckSite) : (w.check site).calls = w.calls := by
  rcases w.check_cases site with ⟨-, hw⟩ | ⟨reason, -, hw⟩ <;> rw [hw]

@[simp] theorem State.check_clock (w : State σ) (site : CheckSite) :
    (w.check site).clock = w.clock := by
  rcases w.check_cases site with ⟨-, hw⟩ | ⟨reason, -, hw⟩ <;> rw [hw]

@[simp] theorem State.check_received (site : CheckSite) :
    (w.check site).received = w.received := by
  rcases w.check_cases site with ⟨-, hw⟩ | ⟨reason, -, hw⟩ <;> rw [hw]

@[simp] theorem State.check_recvErrors (site : CheckSite) :
    (w.check site).recvErrors = w.recvErrors := by
  rcases w.check_cases site with ⟨-, hw⟩ | ⟨reason, -, hw⟩ <;> rw [hw]

/-- A worker after the sleep that follows an error of `recv`, and before the check. -/
def State.slept (w : State σ) : State σ :=
  { w with
    recvErrors := (w.recvErrors + 1) % 2 ^ 32
    clock := w.clock + recvBackoffMs ((w.recvErrors + 1) % 2 ^ 32) }

theorem State.handleRecvError_eq : w.handleRecvError = w.slept.check .recvError := rfl

/-- The handler's reply is sent next, or the process has ended. -/
theorem State.dispatched_cases (w : State σ) (json : SerdeJson) (b : DetectorBackend σ)
    (msg : ZmqMessage) :
    (∃ reply, ((Protocol.dispatch json b msg).run w.backend).1 = .ok reply ∧
      w.dispatched json b msg = { w with
        backend := ((Protocol.dispatch json b msg).run w.backend).2
        phase := .sending msg w.backend reply }) ∨
      w.dispatched json b msg = { w with
        backend := ((Protocol.dispatch json b msg).run w.backend).2
        phase := .exited exitCodePanic .panic } := by
  unfold State.dispatched
  rcases (Protocol.dispatch json b msg).run w.backend with ⟨reply | _ | _, s'⟩
  · exact Or.inl ⟨reply, rfl, rfl⟩
  · exact Or.inr rfl
  · exact Or.inr rfl

/-- **Every step is one of these.** -/
theorem step_cases (h : (loop cli json b).step w e = some w') : Step cli json b w e w' := by
  obtain ⟨backend, health, clock, recvErrors, phase, received, sent, calls⟩ := w
  cases e with
  | tick ms =>
    cases phase <;> cases h
    all_goals exact .tick ms rfl
  | recv msg =>
    cases phase <;> cases h
    exact .recv msg rfl
  | recvError =>
    cases phase <;> cases h
    exact .recvError rfl
  | start =>
    cases phase <;> cases h
    exact .start rfl
  | dispatch =>
    cases phase <;> cases h
    exact .dispatch rfl
  | update =>
    cases phase <;> cases h
    exact .update rfl
  -- the events with a guard of their own
  | monitor =>
    cases phase with
    | exited => cases h
    | _ =>
      obtain ⟨-, hw⟩ := Option.ite_none_right_eq_some.mp h
      cases hw
      exact .monitor rfl
  | recvTimeout =>
    cases phase with
    | receiving =>
      obtain ⟨-, hw⟩ := Option.ite_none_left_eq_some.mp h
      cases hw
      exact .recvTimeout rfl
    | _ => cases h
  | nativeTimeout =>
    cases phase with
    | dispatching msg =>
      obtain ⟨-, hw⟩ := Option.ite_none_right_eq_some.mp h
      cases hw
      exact .nativeTimeout rfl
    | _ => cases h
  | send outcome =>
    cases phase with
    | sending msg before reply =>
      obtain ⟨-, hw⟩ := Option.ite_none_left_eq_some.mp h
      cases hw
      exact .send outcome rfl
    | _ => cases h

/-! ### What a step does -/

theorem loop_start {msg : ZmqMessage} (hp : w.phase = .received msg) :
    (loop cli json b).step w .start = some (w.start json msg) := by
  simp only [loop, hp]

theorem loop_dispatch {msg : ZmqMessage} (hp : w.phase = .dispatching msg) :
    (loop cli json b).step w .dispatch = some (w.dispatched json b msg) := by
  simp only [loop, hp]

theorem loop_send {msg : ZmqMessage} {before : σ} {reply : Reply} {outcome : SendOutcome}
    (hp : w.phase = .sending msg before reply)
    (htime : outcome = .timedOut → 0 < cli.sendTimeoutSecs) :
    (loop cli json b).step w (.send outcome) = some (w.send msg before reply outcome) := by
  simp only [loop, hp]
  rw [if_neg]
  rintro ⟨hout, hzero⟩
  have := htime hout
  omega

theorem loop_update {msg : ZmqMessage} {before : σ} {sendOk : Bool}
    (hp : w.phase = .updating msg before sendOk) :
    (loop cli json b).step w .update = some (w.update json msg sendOk) := by
  simp only [loop, hp]

/-- A message is only counted before it is dispatched. -/
theorem State.start_spec (w : State σ) (json : SerdeJson) (msg : ZmqMessage) :
    (w.start json msg).phase = .dispatching msg ∧ (w.start json msg).backend = w.backend ∧
      (w.start json msg).received = w.received ∧ (w.start json msg).sent = w.sent ∧
      (w.start json msg).clock = w.clock := by
  unfold State.start
  split_ifs <;> exact ⟨rfl, rfl, rfl, rfl, rfl⟩

/-- After its reply the loop is back at `recv`, unless that was the last one of the process. -/
theorem State.update_spec (w : State σ) (json : SerdeJson) (msg : ZmqMessage) (sendOk : Bool) :
    ((w.update json msg sendOk).phase = .receiving ∨
      ∃ code, (w.update json msg sendOk).phase = .exited code .recycled) ∧
      (w.update json msg sendOk).backend = w.backend ∧
      (w.update json msg sendOk).received = w.received ∧
      (w.update json msg sendOk).sent = w.sent ∧
      (w.update json msg sendOk).clock = w.clock := by
  unfold State.update
  split_ifs
  · exact ⟨Or.inl rfl, rfl, rfl, rfl, rfl⟩
  · refine ⟨?_, rfl, rfl, rfl, rfl⟩
    rcases w.health.responseOkExit with _ | code
    · exact Or.inl rfl
    · exact Or.inr ⟨code, rfl⟩
  · exact ⟨Or.inl rfl, rfl, rfl, rfl, rfl⟩

theorem State.update_receiving {msg : ZmqMessage} {sendOk : Bool}
    (hrun : (w.update json msg sendOk).phase.isExited = false) :
    (w.update json msg sendOk).phase = .receiving := by
  rcases (w.update_spec json msg sendOk).1 with hreceiving | ⟨code, hexited⟩
  · exact hreceiving
  · rw [hexited] at hrun
    cases hrun

/-- Only a dispatch changes the backend. -/
theorem backend_of_step (h : (loop cli json b).step w e = some w') :
    (e ≠ .dispatch ∧ w'.backend = w.backend) ∨ ∃ msg, e = .dispatch ∧ w.phase = .dispatching msg ∧
      w'.backend = ((Protocol.dispatch json b msg).run w.backend).2 := by
  cases step_cases h with
  | tick | recv | nativeTimeout | send => exact Or.inl ⟨by simp, rfl⟩
  | monitor | recvTimeout | recvError => exact Or.inl ⟨by simp, State.check_backend ..⟩
  | @start msg => exact Or.inl ⟨by simp, (w.start_spec json msg).2.1⟩
  | @dispatch msg hp =>
    refine Or.inr ⟨msg, rfl, hp, ?_⟩
    rcases w.dispatched_cases json b msg with ⟨reply, -, hw⟩ | hw <;> rw [hw]
  | @update msg before sendOk => exact Or.inl ⟨by simp, (w.update_spec json msg sendOk).2.1⟩

def responseCall (sendOk : Bool) (clock : ℕ) : Call :=
  if sendOk then .responseOk clock else .responseErr clock

/-- What a step adds to the calls: the start of an inference request, or the answer to one. -/
theorem calls_of_step (h : (loop cli json b).step w e = some w') :
    w'.calls = w.calls ∨ w'.calls = w.calls ++ [.requestStart w.clock] ∨
      ∃ msg before sendOk, e = .update ∧ w.phase = .updating msg before sendOk ∧
        classifyMessage json msg = false ∧ w'.calls = w.calls ++ [responseCall sendOk w.clock] := by
  cases step_cases h with
  | tick | recv | nativeTimeout | send => exact Or.inl rfl
  | monitor | recvTimeout | recvError => exact Or.inl (State.check_calls ..)
  | start =>
    unfold State.start
    split_ifs
    · exact Or.inl rfl
    · exact Or.inr (Or.inl rfl)
  | @dispatch msg hp =>
    rcases w.dispatched_cases json b msg with ⟨reply, -, hw⟩ | hw <;> rw [hw] <;> exact Or.inl rfl
  | @update msg before sendOk hp =>
    unfold State.update
    split_ifs with hc hok
    · exact Or.inl rfl
    · exact Or.inr (Or.inr ⟨msg, before, sendOk, rfl, hp, Bool.eq_false_iff.mpr hc, by
        rw [hok]; rfl⟩)
    · exact Or.inr (Or.inr ⟨msg, before, sendOk, rfl, hp, Bool.eq_false_iff.mpr hc, by
        rw [Bool.eq_false_iff.mpr hok]; rfl⟩)

end FrigateZmqDetector.Worker
