import FrigateZmqDetector.Protocol.Truthful
import FrigateZmqDetector.Worker.Health

/-!
# One reply for every message

A REQ peer waits for exactly one reply of the documented shape. `one_reply_per_message` shows that
the loop sends it: whenever the loop is back at `recv`, the replies sent match the messages
received one to one, and no message can end the loop before its reply, as long as the loaded model
has an input tensor.
-/

namespace FrigateZmqDetector.Worker

open Lib Lib.Eff Protocol Tflite

variable {W : Type} {cli : Cli} {json : SerdeJson} {lib : EdgefirstTflite W}
  {w w' : State (TfliteState W)} {e : Event} {events : List Event} {msg : ZmqMessage}
  {s s' : TfliteState W} {reply : Reply}

/-! ### The reply to one message -/

/-- There are no detections to send: the request has no tensor, or there is no model, or inference
fails. -/
def NoDetections (lib : EdgefirstTflite W) (msg : ZmqMessage) (s : TfliteState W) : Prop :=
  msg.length < 2 ∨ s.manager.isReady = false ∨
    ∃ data e, msg[1]? = some data ∧ ((TfliteManager.run lib data).run s).1 = .err e

/-- The documented header of an inference reply: the shape `[20, 6]` and the type `float32`. -/
def documentedHeader : Value :=
  .object [("dtype", .string "float32"),
    ("shape", .array [.number (.posInt 20), .number (.posInt 6)])]

theorem inferenceHeader_eq : inferenceHeader = documentedHeader := rfl

/-- **The documented shape of a reply**, to a message dispatched in `s`. -/
def DocumentedReply (json : SerdeJson) (lib : EdgefirstTflite W) (msg : ZmqMessage)
    (s : TfliteState W) (reply : Reply) : Prop :=
  if classifyMessage json msg then
    ∃ v loaded, reply = [.json v] ∧ v.isObject = true ∧ v.get "model_loaded" = some (.bool loaded)
  else
    ∃ payload, reply = [.json documentedHeader, .raw payload] ∧ payload.length = 480 ∧
      (NoDetections lib msg s → payload = List.replicate 480 0)

theorem modelReply_shape {σ : Type} {b : DetectorBackend σ} {s s' : σ}
    (hc : classifyMessage json msg = true)
    (h : (dispatch json b msg).run s = (.ok reply, s')) :
    ∃ v loaded, reply = [.json v] ∧ v.isObject = true ∧
      v.get "model_loaded" = some (.bool loaded) := by
  have hloaded : ∀ n sv l m c, ∃ v loaded, modelLoadedReply n sv l m c = [.json v] ∧
      v.isObject = true ∧ v.get "model_loaded" = some (.bool loaded) := fun n sv l m c =>
    ⟨_, l, rfl, (get_modelLoaded n sv l m c).1, (get_modelLoaded n sv l m c).2.1⟩
  rw [dispatch, if_pos hc] at h
  have hcases := handleModelRequest_cases b s hc
  rcases hrun : (handleModelRequest json b msg).run s with ⟨out, s₁⟩
  rw [hrun] at hcases
  cases hcases with
  | query =>
    rw [run_orElse_of_ok hrun] at h
    cases h
    exact ⟨_, _, rfl, (get_modelAvailability ..).1, (get_modelAvailability ..).2.1⟩
  | same | different | cached =>
    rw [run_orElse_of_ok hrun] at h
    cases h
    exact hloaded ..
  | refused =>
    rw [run_orElse_of_err hrun] at h
    cases h
    refine ⟨_, false, rfl, rfl, ?_⟩
    exact (Value.get_ofMembers (by simp) _).trans (by simp [findMember])
  | panicked =>
    rw [run_orElse_of_panic hrun] at h
    cases h

theorem zeros_eq : zeros = List.replicate 480 0 := rfl

/-- An inference reply has the fixed header and 480 bytes, all zero without detections. -/
theorem inferenceReply_shape (hc : classifyMessage json msg = false)
    (h : (dispatch json (tfliteBackend lib) msg).run s = (.ok reply, s')) :
    ∃ payload, reply = [.json documentedHeader, .raw payload] ∧ payload.length = 480 ∧
      (NoDetections lib msg s → payload = List.replicate 480 0) := by
  have hzero : zeroInferenceReply = reply → ∃ payload,
      reply = [.json documentedHeader, .raw payload] ∧ payload.length = 480 ∧
        (NoDetections lib msg s → payload = List.replicate 480 0) := fun hz =>
    ⟨zeros, hz.symm, by rw [zeros_eq, List.length_replicate], fun _ => zeros_eq⟩
  rw [dispatch_inference hc] at h
  rcases hdata : msg[1]? with _ | data
  · rw [hdata] at h
    exact hzero (Outcome.ok.inj (Prod.mk.inj h).1)
  · rw [hdata] at h
    dsimp only at h
    split_ifs at h with hready
    · rcases hr : (TfliteManager.run lib data).run s with ⟨output | err | _, s₁⟩
      · have hrun : ((tfliteBackend lib).run data).run s = (.ok output, s₁) := hr
        rw [hrun] at h
        cases h
        refine ⟨output, rfl, run_ok_length hr, ?_⟩
        rintro (hlen | hno | ⟨data', err, hd, he⟩)
        · rw [List.getElem?_eq_none (by omega)] at hdata
          cases hdata
        · exact absurd hready (Bool.eq_false_iff.mp hno)
        · rw [hdata, Option.some.injEq] at hd
          rw [← hd, hr] at he
          cases he
      · have hrun : ((tfliteBackend lib).run data).run s = (.err err, s₁) := hr
        rw [hrun] at h
        exact hzero (Outcome.ok.inj (Prod.mk.inj h).1)
      · have hrun : ((tfliteBackend lib).run data).run s = (.panic, s₁) := hr
        rw [hrun] at h
        cases h
    · exact hzero (Outcome.ok.inj (Prod.mk.inj h).1)

/-- **Every reply has the documented shape.** -/
theorem dispatch_documented (h : (dispatch json (tfliteBackend lib) msg).run s = (.ok reply, s')) :
    DocumentedReply json lib msg s reply := by
  unfold DocumentedReply
  split_ifs with hc
  · exact modelReply_shape hc h
  · exact inferenceReply_shape (Bool.eq_false_iff.mpr hc) h

def ModelHasInput (lib : EdgefirstTflite W) (s : TfliteState W) : Prop :=
  ∀ interp, s.manager.interpreter = some interp → HasInput lib interp

/-- **Every message has a reply**, when the model in use has an input tensor. -/
theorem dispatch_replies (json : SerdeJson) (msg : ZmqMessage) (hin : ModelHasInput lib s) :
    ∃ reply s', (dispatch json (tfliteBackend lib) msg).run s = (.ok reply, s') := by
  by_cases hc : classifyMessage json msg = true
  · rw [dispatch, if_pos hc]
    have hcases := handleModelRequest_cases (tfliteBackend lib) s hc
    rcases hrun : (handleModelRequest json (tfliteBackend lib) msg).run s with ⟨out, s₁⟩
    rw [hrun] at hcases
    cases hcases with
    | query | same | different | cached => exact ⟨_, _, run_orElse_of_ok hrun⟩
    | refused => exact ⟨_, _, run_orElse_of_err hrun⟩
    | panicked _ _ hp => exact absurd hp cacheModel_ne_panic
  · rw [dispatch_inference (Bool.eq_false_iff.mpr hc)]
    rcases hdata : msg[1]? with _ | data
    · exact ⟨_, _, rfl⟩
    · dsimp only
      split_ifs with hready
      · have hs := run_ensures hin data
        rcases hr : (TfliteManager.run lib data).run s with ⟨output | err | _, s₁⟩
        · have hrun : ((tfliteBackend lib).run data).run s = (.ok output, s₁) := hr
          rw [hrun]
          exact ⟨_, _, rfl⟩
        · have hrun : ((tfliteBackend lib).run data).run s = (.err err, s₁) := hr
          rw [hrun]
          exact ⟨_, _, rfl⟩
        · rw [hr] at hs
          exact hs.elim
      · exact ⟨_, _, rfl⟩

/-! ### What a step is to the peers -/

/-- The message that is being answered, until its reply is sent. -/
def Phase.pending {σ : Type} : Phase σ → Option ZmqMessage
  | .received msg | .dispatching msg | .sending msg _ _ => some msg
  | .receiving | .updating .. | .exited .. => none

/-- The message that has been handled, until its reply is sent. -/
def Phase.handled {σ : Type} : Phase σ → Option ZmqMessage
  | .sending msg _ _ => some msg
  | _ => none

/-- A step that answers nothing and leaves the backend alone. -/
structure Quiet {σ : Type} (w w' : State σ) : Prop where
  backend : w'.backend = w.backend
  received : w'.received = w.received
  sent : w'.sent = w.sent
  /-- No reply gets ready. -/
  handled : w'.phase.handled = none ∨ w'.phase = w.phase
  running : w'.phase.isExited = false → w.phase.isExited = false ∧
    w'.phase.pending = w.phase.pending ∧ w'.phase.handled = w.phase.handled

theorem quiet_check {σ : Type} (w : State σ) (site : CheckSite) : Quiet w (w.check site) := by
  rcases w.check_cases site with ⟨-, hw⟩ | ⟨reason, -, hw⟩ <;> rw [hw]
  · exact ⟨rfl, rfl, rfl, Or.inr rfl, fun hrun => ⟨hrun, rfl, rfl⟩⟩
  · exact ⟨rfl, rfl, rfl, Or.inl rfl, fun hrun => by cases hrun⟩

/-- A step, as the peers of the worker see it. -/
inductive Turn {σ : Type} (json : SerdeJson) (b : DetectorBackend σ) (w : State σ) :
    State σ → Prop
  | quiet {w' : State σ} (h : Quiet w w') : Turn json b w w'
  | recv (msg : ZmqMessage) (hp : w.phase = .receiving) : Turn json b w (w.recv msg)
  | dispatched {msg : ZmqMessage} (hp : w.phase = .dispatching msg) :
    Turn json b w (w.dispatched json b msg)
  | send {msg : ZmqMessage} {before : σ} {reply : Reply} (outcome : SendOutcome)
    (hp : w.phase = .sending msg before reply) : Turn json b w (w.send msg before reply outcome)

theorem turn_of_step {σ : Type} {b : DetectorBackend σ} {w w' : State σ} {e : Event}
    (hs : (loop cli json b).step w e = some w') : Turn json b w w' := by
  cases step_cases hs with
  | tick ms hrun => exact .quiet ⟨rfl, rfl, rfl, Or.inr rfl, fun _ => ⟨hrun, rfl, rfl⟩⟩
  | monitor | recvTimeout => exact .quiet (quiet_check ..)
  | recv msg hp => exact .recv msg hp
  | recvError hp =>
    obtain ⟨hbackend, hreceived, hsent, hhandled, hrunning⟩ := quiet_check w.slept .recvError
    exact .quiet ⟨hbackend, hreceived, hsent, hhandled, hrunning⟩
  | @start msg hp =>
    obtain ⟨hphase, hbackend, hreceived, hsent, -⟩ := w.start_spec json msg
    refine .quiet ⟨hbackend, hreceived, hsent, Or.inl ?_, fun _ => ?_⟩ <;> rw [hphase]
    · rfl
    · rw [hp]
      exact ⟨rfl, rfl, rfl⟩
  | dispatch hp => exact .dispatched hp
  | nativeTimeout => exact .quiet ⟨rfl, rfl, rfl, Or.inl rfl, fun hrun => by cases hrun⟩
  | send outcome hp => exact .send outcome hp
  | @update msg before sendOk hp =>
    obtain ⟨hphase | ⟨code, hphase⟩, hbackend, hreceived, hsent, -⟩ :=
      w.update_spec json msg sendOk
    all_goals
      refine .quiet ⟨hbackend, hreceived, hsent, Or.inl ?_, fun hrun => ?_⟩ <;>
        rw [hphase] at *
    · rfl
    · rw [hp]
      exact ⟨rfl, rfl, rfl⟩
    · rfl
    · cases hrun

/-! ### The replies of a run -/

section Ledger

variable {σ : Type} {b : DetectorBackend σ} {I : σ → Prop} {P : ZmqMessage → σ → Reply → Prop}
  {v v' : State σ}

/-- What the replies have to do with the messages, when those that the handlers give to `msg` in a
state `s` of the backend satisfy `P msg s`. -/
structure Ledger (I : σ → Prop) (P : ZmqMessage → σ → Reply → Prop) (w : State σ) : Prop where
  backend : I w.backend
  /-- Every message but the one being answered has had one reply. -/
  answered : ∃ done pending, w.received = done ++ pending.toList ∧
    (w.phase.isExited = false → pending = w.phase.pending) ∧
    List.Forall₂ (fun msg a => P msg a.before a.reply) done w.sent
  /-- So will the one whose reply is ready. -/
  ready : ∀ msg before reply, w.phase = .sending msg before reply → P msg before reply

namespace Ledger

theorem initial {backend : σ} (h : I backend) : Ledger I P (.initial cli backend) where
  backend := h
  answered := ⟨[], none, rfl, fun _ => rfl, .nil⟩
  ready _ _ _ h := by cases h

variable (h : Ledger I P v)
include h

theorem quiet (hq : Quiet v v') : Ledger I P v' where
  backend := hq.backend ▸ h.backend
  answered := by
    obtain ⟨done, pending, hd, hpend, hall⟩ := h.answered
    rw [hq.received, hq.sent]
    refine ⟨done, pending, hd, fun hrun => ?_, hall⟩
    obtain ⟨hrunning, hpending, -⟩ := hq.running hrun
    rw [hpending]
    exact hpend hrunning
  ready msg before reply hp := by
    rcases hq.handled with hnone | hsame
    · rw [hp] at hnone
      cases hnone
    · exact h.ready msg before reply (hsame ▸ hp)

/-- **Every step keeps the ledger.** -/
theorem step (hdispatch : ∀ s msg, I s → I ((dispatch json b msg).run s).2 ∧
      ∀ reply, ((dispatch json b msg).run s).1 = .ok reply → P msg s reply)
    (hs : (loop cli json b).step v e = some v') : Ledger I P v' := by
  obtain ⟨done, pending, hd, hpend, hall⟩ := h.answered
  cases turn_of_step hs with
  | quiet hq => exact h.quiet hq
  | recv msg hp =>
    obtain rfl : pending = none := by rw [hpend (hp ▸ rfl), hp]; rfl
    refine ⟨h.backend, ⟨done, some msg, ?_, fun _ => rfl, hall⟩, fun _ _ _ hp' => by cases hp'⟩
    show v.received ++ [msg] = _
    rw [hd]
    simp
  | @dispatched msg hp =>
    obtain ⟨hI, hP⟩ := hdispatch v.backend msg h.backend
    obtain rfl : pending = some msg := by rw [hpend (hp ▸ rfl), hp]; rfl
    rcases v.dispatched_cases json b msg with ⟨reply, hok, hw⟩ | hw <;> rw [hw]
    · refine ⟨hI, ⟨done, some msg, hd, fun _ => rfl, hall⟩, fun _ _ _ hp' => ?_⟩
      cases hp'
      exact hP reply hok
    · exact ⟨hI, ⟨done, some msg, hd, nofun, hall⟩, nofun⟩
  | @send msg before reply outcome hp =>
    obtain rfl : pending = some msg := by rw [hpend (hp ▸ rfl), hp]; rfl
    refine ⟨h.backend, ⟨done ++ [msg], none, ?_, fun _ => rfl, ?_⟩, fun _ _ _ hp' => by cases hp'⟩
    · show v.received = _
      rw [hd]
      simp
    · exact List.rel_append hall (.cons (h.ready _ _ _ hp) .nil)

/-- The reply to each message. -/
theorem getElem? {k : ℕ} {a : Sent σ} (ha : v.sent[k]? = some a) :
    ∃ msg, v.received[k]? = some msg ∧ P msg a.before a.reply := by
  obtain ⟨done, pending, hd, -, hall⟩ := h.answered
  obtain ⟨hlen, hget⟩ := List.forall₂_iff_get.mp hall
  obtain ⟨hk, rfl⟩ := List.getElem?_eq_some_iff.mp ha
  refine ⟨done[k], ?_, hget k (hlen ▸ hk) hk⟩
  rw [hd, List.getElem?_append_left (hlen ▸ hk), List.getElem?_eq_getElem]

end Ledger

end Ledger

theorem exec_documented {backend : TfliteState W}
    (h : (loop cli json (tfliteBackend lib)).exec (.initial cli backend) events = some w) :
    Ledger (fun _ => True) (DocumentedReply json lib) w :=
  Machine.exec_invariant (fun _ _ _ hl hs => hl.step (fun _ _ _ => ⟨trivial, fun _ hr =>
    dispatch_documented (Prod.ext hr rfl)⟩) hs) (.initial trivial) h

/-- A message is dispatched with its reply ready, when the model in use has an input tensor. -/
theorem step_dispatch (cli : Cli) (hp : w.phase = .dispatching msg)
    (hin : ModelHasInput lib w.backend) :
    ∃ reply w', (loop cli json (tfliteBackend lib)).step w .dispatch = some w' ∧
      w'.phase = .sending msg w.backend reply ∧ w'.received = w.received ∧ w'.sent = w.sent ∧
      DocumentedReply json lib msg w.backend reply := by
  obtain ⟨reply, s', hr⟩ := dispatch_replies json msg hin
  refine ⟨reply, { w with backend := s', phase := .sending msg w.backend reply }, ?_, rfl, rfl, rfl,
    dispatch_documented hr⟩
  rw [loop_dispatch hp, State.dispatched, hr]

/-- **Nothing is in the way of the reply**: from the message on, the steps of the loop send it once,
whatever becomes of the send. -/
theorem exec_answer {outcome : SendOutcome} (hp : w.phase = .received msg)
    (hin : ModelHasInput lib w.backend) (htime : outcome = .timedOut → 0 < cli.sendTimeoutSecs) :
    ∃ reply w', (loop cli json (tfliteBackend lib)).exec w
        [.start, .dispatch, .send outcome, .update] = some w' ∧
      w'.received = w.received ∧ w'.sent = w.sent ++ [⟨w.backend, reply⟩] ∧
      (w'.phase = .receiving ∨ ∃ code, w'.phase = .exited code .recycled) ∧
      DocumentedReply json lib msg w.backend reply := by
  obtain ⟨hphase, hbackend, hreceived, hsent, -⟩ := w.start_spec json msg
  obtain ⟨reply, w₁, hdispatch, hsending, hreceived₁, hsent₁, hdoc⟩ :=
    step_dispatch cli hphase (hbackend ▸ hin)
  rw [hbackend] at hsending hdoc
  have hupdating : (w₁.send msg w.backend reply outcome).phase =
      .updating msg w.backend (outcome = .ok) := rfl
  obtain ⟨hend, -, hreceived₂, hsent₂, -⟩ :=
    (w₁.send msg w.backend reply outcome).update_spec json msg (outcome = .ok)
  refine ⟨reply, _, ?_, hreceived₂.trans (hreceived₁.trans hreceived), ?_, hend, hdoc⟩
  · rw [Machine.exec_cons, loop_start hp, Option.bind_some, Machine.exec_cons, hdispatch,
      Option.bind_some, Machine.exec_cons, loop_send hsending htime, Option.bind_some,
      Machine.exec_cons, loop_update hupdating, Option.bind_some, Machine.exec_nil]
  · rw [hsent₂]
    show w₁.sent ++ [⟨w.backend, reply⟩] = _
    rw [hsent₁, hsent]

/-- **One reply for every message.** In every state of every run, every message received so far has
had exactly one reply, of the documented shape, but for the one that is being answered. When the
model in use has an input tensor, the dispatch of that one ends in a reply, and from a message that
has just been received the loop goes on to exactly one send of one documented reply, whatever
becomes of the send. -/
theorem one_reply_per_message {backend : TfliteState W}
    (h : (loop cli json (tfliteBackend lib)).exec (.initial cli backend) events = some w) :
    (w.phase.isExited = false → ∃ done, w.received = done ++ w.phase.pending.toList ∧
      List.Forall₂ (fun msg a => DocumentedReply json lib msg a.before a.reply) done w.sent) ∧
    (∀ msg, w.phase = .dispatching msg → ModelHasInput lib w.backend →
      ∃ reply w', (loop cli json (tfliteBackend lib)).step w .dispatch = some w' ∧
        w'.phase = .sending msg w.backend reply ∧
        DocumentedReply json lib msg w.backend reply) ∧
    ∀ msg outcome, w.phase = .received msg → ModelHasInput lib w.backend →
      (outcome = .timedOut → 0 < cli.sendTimeoutSecs) →
      ∃ reply w', (loop cli json (tfliteBackend lib)).exec w
          [.start, .dispatch, .send outcome, .update] = some w' ∧
        w'.received = w.received ∧ w'.sent = w.sent ++ [⟨w.backend, reply⟩] ∧
        (w'.phase = .receiving ∨ ∃ code, w'.phase = .exited code .recycled) ∧
        DocumentedReply json lib msg w.backend reply := by
  have hl := exec_documented h
  refine ⟨fun hrun => ?_, fun msg hp hin => ?_, fun msg outcome hp hin htime => ?_⟩
  · obtain ⟨done, pending, hd, hpend, hall⟩ := hl.answered
    exact ⟨done, hpend hrun ▸ hd, hall⟩
  · obtain ⟨reply, w', hs, hsending, -, -, hdoc⟩ := step_dispatch cli hp hin
    exact ⟨reply, w', hs, hsending, hdoc⟩
  · exact exec_answer hp hin htime

/-- A message that is received, answered and sent without trouble. -/
def exchange (msg : ZmqMessage) : List Event := [.recv msg, .start, .dispatch, .send .ok, .update]

/-- A transfer and a request that fails are both answered, and so is one more whose send times
out. -/
theorem one_reply_per_message_run :
    ∃ w, (loop cpuCli transferJson (tfliteBackend smallTflite)).exec (.initial cpuCli smallState)
        (exchange [transferHeader "ssd", [1]] ++ exchange [[], [0, 0]] ++ [.recv [[], []]]) =
          some w ∧
      (∃ done, w.received = done ++ w.phase.pending.toList ∧
        List.Forall₂ (fun msg a => DocumentedReply transferJson smallTflite msg a.before a.reply)
          done w.sent) ∧
      ∃ reply w', (loop cpuCli transferJson (tfliteBackend smallTflite)).exec w
          [.start, .dispatch, .send .timedOut, .update] = some w' ∧
        w'.sent = w.sent ++ [⟨w.backend, reply⟩] ∧
        DocumentedReply transferJson smallTflite [[], []] w.backend reply := by
  have hrun : ((loop cpuCli transferJson (tfliteBackend smallTflite)).exec
      (.initial cpuCli smallState) (exchange [transferHeader "ssd", [1]] ++
        exchange [[], [0, 0]] ++ [.recv [[], []]])).any (fun w =>
          match w.phase with
          | .received msg => msg = [[], []]
          | _ => false) = true := by decide
  obtain ⟨w, hw, hphase⟩ := (Option.any_eq_true ..).mp hrun
  have hp : w.phase = .received [[], []] := by
    split at hphase
    · rename_i msg hp
      rw [hp, of_decide_eq_true hphase]
    · cases hphase
  obtain ⟨hanswered, -, hnext⟩ := one_reply_per_message hw
  have hin : ModelHasInput smallTflite w.backend := fun _ _ _ inputs _ hr => by cases hr; simp
  obtain ⟨reply, w', hw', -, hsent, -, hdoc⟩ := hnext _ .timedOut hp hin fun _ => by decide
  exact ⟨w, hw, hanswered (hp ▸ rfl), reply, w', hw', hsent, hdoc⟩

end FrigateZmqDetector.Worker
