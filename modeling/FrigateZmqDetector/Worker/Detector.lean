import FrigateZmqDetector.Lib.Sequential
import FrigateZmqDetector.Protocol.Stateless
import FrigateZmqDetector.Worker.Replies

/-!
# The worker as a detector

What a client sees of a worker. A detector holds at most one model, under a name. It takes the first
model that is accepted and keeps it, and it answers from that model alone. `loop_refines` shows that
a worker is such a detector, from the options on: whatever happens to its calls of `recv` and
`send`, however long anything takes and whatever its library keeps in its tensors, the replies that
it has sent are those of the detector to the messages in the order in which they came.

`inference_replies` says what an inference reply decodes to: the detections that the program of the
held model makes of this very input, or no detections.
-/

namespace FrigateZmqDetector.Worker

open Lib Lib.Eff Protocol Tflite

variable {W : Type} {cli : Cli} {json : SerdeJson} {lib : EdgefirstTflite W} {beh : Behaviour}
  {view : View W} {c : Config} {msg : ZmqMessage} {s : TfliteState W}
  {w w' : State (TfliteState W)} {e : Event} {events : List Event} {reply : Reply}

/-! ### The detector -/

/-- The model that is held, and its name. -/
abbrev Held : Type := Option (Bytes × Option String)

/-- **The first accepted model is held.** -/
def takes (json : SerdeJson) (beh : Behaviour) (c : Config) (d : Held) (msg : ZmqMessage) : Held :=
  d.or ((transferOf json msg).bind fun transfer =>
    if beh.accepts c transfer.1 then some (transfer.1, some transfer.2) else none)

def detector (json : SerdeJson) (beh : Behaviour) (c : Config) :
    Sequential Held ZmqMessage (Outcome SidecarError Reply) where
  next := takes json beh c
  out d msg := replyOf json beh c (d.map Prod.fst) (d.bind Prod.snd) msg

/-! ### What an inference reply says -/

/-- The detections that the held model finds in the tensor of a request. -/
def detections (beh : Behaviour) (c : Config) (d : Held) (msg : ZmqMessage) : Option SsdOutputs :=
  d.bind fun m => msg[1]?.bind fun input => beh.detections (c.program m.1) input

/-- Row `i` of the table of what was detected. -/
def detectedRow (o : Option SsdOutputs) (i : ℕ) : List Binary32 :=
  match o with
  | some o => if i < o.emitted then o.row i else List.replicate 6 .zero
  | none => List.replicate 6 .zero

/-- **A payload decodes to what was detected.** -/
def Decodes (payload : Bytes) (o : Option SsdOutputs) : Prop :=
  payload.length = 480 ∧
    ∀ i < maxDetections, tableRow (Binary32.listOfLeBytes payload) i = detectedRow o i

theorem decodes_zeros : Decodes zeros none := by
  refine ⟨by rw [zeros_eq, List.length_replicate], fun i _ => ?_⟩
  have hfloats : Binary32.listOfLeBytes zeros = List.replicate 120 .zero := by decide
  rw [hfloats]
  exact tableRow_replicate 120 i

theorem decodes_table (o : SsdOutputs) : Decodes (Binary32.listToLeBytes o.table) (some o) := by
  refine ⟨?_, fun i hi => tableRow_decoded o hi⟩
  rw [Binary32.length_listToLeBytes, (run_detectionLoop_table o ()).2.1]
  rfl

/-- **An inference is answered with what is detected**, by a detector that answers at all. -/
theorem out_inference {d : Held} (hclass : classifyMessage json msg = false)
    (h : (detector json beh c).out d msg = .ok reply) :
    ∃ payload, reply = [.json documentedHeader, .raw payload] ∧
      Decodes payload (detections beh c d msg) := by
  have hzero : ∀ o : Option SsdOutputs, o = none → (.ok zeroInferenceReply : Outcome SidecarError _) =
      .ok reply → ∃ payload, reply = [.json documentedHeader, .raw payload] ∧ Decodes payload o := by
    rintro _ rfl hz
    exact ⟨zeros, (Outcome.ok.inj hz).symm, decodes_zeros⟩
  have hout : replyOf json beh c (d.map Prod.fst) (d.bind Prod.snd) msg = .ok reply := h
  unfold replyOf at hout
  rw [hclass] at hout
  unfold detections
  cases hdata : msg[1]? with
  | none =>
    rw [hdata] at hout
    exact hzero _ (by simp) hout
  | some input =>
    rw [hdata] at hout
    cases d with
    | none => exact hzero _ rfl hout
    | some m =>
      by_cases hin : beh.inputSizes (c.program m.1) = some []
      · have hpanic : beh.infer (c.program m.1) input = .panic := by
          rw [Behaviour.infer, hin]
        simp [hpanic] at hout
      · have hinfer := infer_eq hin input
        show ∃ payload, _ ∧ Decodes payload (beh.detections (c.program m.1) input)
        cases hdet : beh.detections (c.program m.1) input with
        | none =>
          simp only [Option.map_some, hinfer, hdet] at hout
          exact hzero _ rfl hout
        | some o =>
          simp only [Option.map_some, hinfer, hdet] at hout
          exact ⟨_, (Outcome.ok.inj hout).symm, decodes_table o⟩

/-! ### The manager as a detector -/

/-- What a manager holds. -/
def held (s : TfliteState W) : Held :=
  s.manager.modelBytes.map fun data => (data, s.manager.modelName)

/-- A manager whose library behaves, and which has no name without a model. -/
structure Detects (beh : Behaviour) (view : View W) (c : Config) (s : TfliteState W) : Prop where
  serving : Serving beh view c s
  named : s.manager.modelBytes = none → s.manager.modelName = none

theorem held_fst (s : TfliteState W) : (held s).map Prod.fst = s.manager.modelBytes := by
  simp [held, Function.comp_def]

namespace Detects

theorem fresh (native : W) : Detects beh view c ⟨c.manager, native⟩ := ⟨.fresh native, fun _ => rfl⟩

variable (h : Detects beh view c s)
include h

theorem held_snd : (held s).bind Prod.snd = s.manager.modelName := by
  unfold held
  cases hdata : s.manager.modelBytes with
  | none => exact (h.named hdata).symm
  | some data => rfl

theorem held_of_ready (hready : s.manager.isReady = false) : held s = none := by
  rw [h.serving.isReady_eq, Option.isSome_eq_false_iff, Option.isNone_iff_eq_none] at hready
  rw [held, hready]
  rfl

variable (hb : Behaves lib beh view)
include hb

theorem warmup : Detects beh view c ((TfliteManager.warmup lib).run s).2 := by
  have hm : ((TfliteManager.warmup lib).run s).2.manager = s.manager := keeps_warmup s
  refine ⟨h.serving.warmup hb, ?_⟩
  rw [hm]
  exact h.named

theorem cacheModel (hready : s.manager.isReady = false) {data : Bytes} {name : Option String}
    {t : TfliteState W} (hc : (TfliteManager.cacheModel lib data name).run s = (.ok (), t)) :
    Detects beh view c t ∧ held t = some (data, name) := by
  have hserving := (h.serving.cacheModel hb hready data name).2
  rw [hc] at hserving
  obtain ⟨model, interpreter, w, -, rfl⟩ := cacheModel_eq_ok hc
  exact ⟨⟨hserving, fun hnone => by cases hnone⟩, rfl⟩

theorem handle (json : SerdeJson) (msg : ZmqMessage) :
    Detects beh view c (handle json lib s msg) := by
  refine ⟨h.serving.handle hb json msg, fun hmodel => ?_⟩
  rw [handle_manager] at hmodel ⊢
  split_ifs at hmodel ⊢
  · exact h.named hmodel
  · cases hp : passes json lib s msg with
    | none =>
      rw [hp] at hmodel
      exact h.named hmodel
    | some l =>
      rw [hp] at hmodel
      cases hmodel

/-- An inference is answered with what the model of the manager detects. -/
theorem inference (hclass : classifyMessage json msg = false)
    (hreply : ((Protocol.dispatch json (tfliteBackend lib) msg).run s).1 = .ok reply) :
    ∃ payload, reply = [.json documentedHeader, .raw payload] ∧
      Decodes payload (detections beh c (held s) msg) := by
  refine out_inference hclass (Eq.trans ?_ hreply)
  show replyOf json beh c ((held s).map Prod.fst) ((held s).bind Prod.snd) msg = _
  rw [held_fst, h.held_snd, (inference_refines hb h.serving hclass).2]

variable (hl : Loads lib beh view)
include hl

/-- Whether a transfer passes does not depend on the state of the library. -/
theorem passes_eq (json : SerdeJson) (msg : ZmqMessage) :
    (passes json lib s msg).map (fun l => (l.bytes, some l.name)) =
      (transferOf json msg).bind fun transfer =>
        if beh.accepts c transfer.1 then some (transfer.1, some transfer.2) else none := by
  unfold passes
  cases transferOf json msg with
  | none => rfl
  | some transfer =>
    rw [Option.bind_some, Option.bind_some]
    rcases buildModel_refines hb c h.serving.delegatePath h.serving.useDelegate h.serving.threads
      transfer.1 s.native with ⟨loaded, w', hrun, -, hacc⟩ | ⟨e, w', hrun, hacc⟩
    · rw [hrun, if_pos (hacc hl)]
      rfl
    · rw [hrun, if_neg (Bool.eq_false_iff.mp (hacc hl))]
      rfl

/-- **One message.** The manager answers as the detector does, and holds what it holds. -/
theorem dispatch (json : SerdeJson) (msg : ZmqMessage) :
    ((Protocol.dispatch json (tfliteBackend lib) msg).run s).1 =
        (detector json beh c).out (held s) msg ∧
      Detects beh view c (Protocol.handle json lib s msg) ∧
      held (Protocol.handle json lib s msg) = (detector json beh c).next (held s) msg := by
  have hout : ((Protocol.dispatch json (tfliteBackend lib) msg).run s).1 =
      (detector json beh c).out (held s) msg := by
    rw [dispatch_refines hb h.serving json msg fun _ => hl]
    show _ = replyOf ..
    rw [held_fst, h.held_snd]
  refine ⟨hout, h.handle hb json msg, ?_⟩
  by_cases hready : s.manager.isReady = true
  · have hm : (Protocol.handle json lib s msg).manager = s.manager := by
      rw [handle_manager, if_pos hready]
    obtain ⟨data, hdata⟩ := Option.isSome_iff_exists.mp (h.serving.isReady_eq ▸ hready)
    have hheld : held s = some (data, s.manager.modelName) := by rw [held, hdata]; rfl
    show held _ = (held s).or _
    rw [hheld, held, hm, hdata]
    rfl
  · have hready' : s.manager.isReady = false := Bool.eq_false_iff.mpr hready
    have hm : (Protocol.handle json lib s msg).manager =
        withModel s.manager (passes json lib s msg) := by
      rw [handle_manager, if_neg hready]
    have hpasses := h.passes_eq hb hl json msg
    have hnone := h.held_of_ready hready'
    show held _ = (held s).or _
    rw [hnone, Option.none_or, ← hpasses]
    cases hp : passes json lib s msg with
    | none =>
      rw [hp] at hm
      unfold held at hnone ⊢
      rw [hm]
      exact hnone
    | some l =>
      rw [hp] at hm
      rw [held, hm]
      rfl

end Detects

/-! ### The loop as a detector -/

/-- Every message but the one being answered has had the answer of a detector that started with
`d`, and the manager holds what this detector holds. -/
structure Follows (json : SerdeJson) (beh : Behaviour) (view : View W) (c : Config) (d : Held)
    (w : State (TfliteState W)) : Prop where
  backend : Detects beh view c w.backend
  answered : ∃ done pending, w.received = done ++ pending.toList ∧
    (detector json beh c).outputs d done = w.sent.map (fun a => .ok a.reply) ∧
    (w.phase.isExited = false → pending = w.phase.pending ∧
      held w.backend = (detector json beh c).after d (done ++ w.phase.handled.toList)) ∧
    ∀ msg before reply, w.phase = .sending msg before reply →
      (detector json beh c).out ((detector json beh c).after d done) msg = .ok reply

namespace Follows

variable {d : Held}

theorem initial (h : Detects beh view c s) :
    Follows json beh view c (held s) (.initial cli s) where
  backend := h
  answered := ⟨[], none, rfl, rfl, fun _ => ⟨rfl, rfl⟩, fun _ _ _ hp => by cases hp⟩

variable (h : Follows json beh view c d w)
include h

theorem quiet (hq : Quiet w w') : Follows json beh view c d w' where
  backend := hq.backend ▸ h.backend
  answered := by
    obtain ⟨done, pending, hd, hout, hrun, hreply⟩ := h.answered
    rw [hq.received, hq.sent, hq.backend]
    refine ⟨done, pending, hd, hout, fun hrun' => ?_, fun msg before reply hp => ?_⟩
    · obtain ⟨hrunning, hpending, hhandled⟩ := hq.running hrun'
      rw [hpending, hhandled]
      exact hrun hrunning
    · rcases hq.handled with hnone | hsame
      · rw [hp] at hnone
        cases hnone
      · exact hreply msg before reply (hsame ▸ hp)

variable (hb : Behaves lib beh view) (hl : Loads lib beh view)
include hb hl

/-- **The dispatch of a message** is a step of the detector. -/
theorem dispatched (hp : w.phase = .dispatching msg) :
    Follows json beh view c d (w.dispatched json (tfliteBackend lib) msg) := by
  obtain ⟨hreply, hbackend, hheld⟩ := h.backend.dispatch hb hl json msg
  obtain ⟨done, pending, hd, hout, hrun, -⟩ := h.answered
  obtain ⟨hpending, hafter⟩ := hrun (hp ▸ rfl)
  rw [hp] at hpending hafter
  have hdone : held w.backend = (detector json beh c).after d done := by
    rw [hafter]
    exact congrArg _ (List.append_nil done)
  rcases w.dispatched_cases json (tfliteBackend lib) msg with ⟨reply, hok, hw⟩ | hw <;> rw [hw]
  · refine ⟨hbackend, done, pending, hd, hout, fun _ => ⟨hpending, ?_⟩, fun _ _ _ hp' => ?_⟩
    · show held (handle json lib w.backend msg) = (detector json beh c).after d (done ++ [msg])
      rw [hheld, Sequential.after_snoc, hdone]
    · cases hp'
      rw [← hdone, ← hreply, hok]
  · exact ⟨hbackend, done, pending, hd, hout, (fun hrun' => by cases hrun'),
      (fun _ _ _ hp' => by cases hp')⟩

/-- **Every step follows the detector.** -/
theorem step (hs : (loop cli json (tfliteBackend lib)).step w e = some w') :
    Follows json beh view c d w' := by
  cases turn_of_step hs with
  | quiet hq => exact h.quiet hq
  | recv msg hp =>
    obtain ⟨done, pending, hd, hout, hrun, -⟩ := h.answered
    obtain ⟨hpending, hafter⟩ := hrun (hp ▸ rfl)
    rw [hp] at hpending hafter
    obtain rfl : pending = none := hpending
    refine ⟨h.backend, done, some msg, ?_, hout, fun _ => ⟨rfl, hafter⟩,
      fun _ _ _ hp' => by cases hp'⟩
    show w.received ++ [msg] = _
    rw [hd]
    simp
  | dispatched hp => exact h.dispatched hb hl hp
  | @send msg before reply outcome hp =>
    obtain ⟨done, pending, hd, hout, hrun, hreply⟩ := h.answered
    obtain ⟨hpending, hafter⟩ := hrun (hp ▸ rfl)
    rw [hp] at hpending hafter
    obtain rfl : pending = some msg := hpending
    refine ⟨h.backend, done ++ [msg], none, ?_, ?_, fun _ => ⟨rfl, ?_⟩,
      fun _ _ _ hp' => by cases hp'⟩
    · show w.received = _
      rw [hd]
      simp
    · have hsent : (w.send msg before reply outcome).sent = w.sent ++ [⟨before, reply⟩] := rfl
      rw [Sequential.outputs_snoc, hout, hreply _ _ _ hp, hsent, List.map_append]
      rfl
    · exact hafter.trans (congrArg _ (List.append_nil _).symm)

end Follows

/-! ### From the options on -/

/-- The configuration that the options select. -/
def configOf (cli : Cli) : Config where
  threads := cli.threads
  delegatePath := match cli.backend with
    | .edgeTpu => cli.edgetpuDelegate
    | .teflon => if cli.noDelegate then "" else cli.delegate
  useDelegate := match cli.backend with
    | .edgeTpu => true
    | .teflon => !cli.noDelegate

/-- The model of the file, if there is one. -/
def fileModel (cli : Cli) : Held :=
  cli.model.bind fun file => file.contents.toOption.map fun data => (data, file.fileName)

theorem selectBackend_eq (cli : Cli) : selectBackend cli = (configOf cli).manager := by
  unfold selectBackend configOf Config.manager
  cases cli.backend with
  | edgeTpu => rfl
  | teflon => cases cli.noDelegate <;> rfl

/-- **A worker that enters the loop holds the model of its file.** -/
theorem startup_detects (hb : Behaves lib beh view) {native : W} {t : TfliteState W}
    (hboot : (startup (tfliteBackend lib) cli).run ⟨selectBackend cli, native⟩ = (.ok (), t)) :
    Detects beh view (configOf cli) t ∧ held t = fileModel cli := by
  rw [selectBackend_eq] at hboot
  have hfresh : Detects beh view (configOf cli) ⟨(configOf cli).manager, native⟩ := .fresh native
  obtain ⟨s₁, hkept, hs₁⟩ := startup_cases
    (I := fun s => Detects beh view (configOf cli) s ∧ held s = fileModel cli)
    (fun s hs => ⟨hs.1.warmup hb, by
      rw [← hs.2]
      exact congrArg (fun m : TfliteManager => m.modelBytes.map fun data => (data, m.modelName))
        (keeps_warmup s)⟩) hboot
  rcases hs₁ with ⟨hmodel, rfl⟩ | ⟨file, data, hmodel, hdata, hload⟩
  · refine hkept ⟨hfresh, ?_⟩
    rw [fileModel, hmodel]
    rfl
  · obtain ⟨hdetects, hheld⟩ := hfresh.cacheModel hb rfl hload
    refine hkept ⟨hdetects, ?_⟩
    rw [hheld, fileModel, hmodel, Option.bind_some, hdata]
    rfl

section Worker

variable (hb : Behaves lib beh view) (hl : Loads lib beh view) {native : W} {t : TfliteState W}
  (hboot : (startup (tfliteBackend lib) cli).run ⟨selectBackend cli, native⟩ = (.ok (), t))
  (h : (loop cli json (tfliteBackend lib)).exec (.initial cli t) events = some w)
include hb hl hboot h

theorem exec_follows : Follows json beh view (configOf cli) (fileModel cli) w := by
  obtain ⟨hdetects, hheld⟩ := startup_detects hb hboot
  exact Machine.exec_invariant (fun _ _ _ h hs => h.step hb hl hs) (hheld ▸ .initial hdetects) h

/-- **A worker is a detector.** From its options on, the replies that it has sent are those of a
detector that starts with the model of the file, to the messages that it has received, but for the
last one while that is being answered; and back at `recv` it holds what that detector holds. -/
theorem loop_refines :
    (∃ done pending, w.received = done ++ pending.toList ∧
      w.sent.map (fun a => .ok a.reply) =
        (detector json beh (configOf cli)).outputs (fileModel cli) done ∧
      (w.phase.isExited = false → pending = w.phase.pending)) ∧
    (w.phase = .receiving →
      held w.backend = (detector json beh (configOf cli)).after (fileModel cli) w.received) := by
  obtain ⟨done, pending, hd, hout, hrun, -⟩ := (exec_follows hb hl hboot h).answered
  refine ⟨⟨done, pending, hd, hout.symm, fun hrunning => (hrun hrunning).1⟩, fun hp => ?_⟩
  obtain ⟨hpending, hheld⟩ := hrun (hp ▸ rfl)
  rw [hp] at hpending hheld
  obtain rfl : pending = none := hpending
  rw [hheld, hd]
  rfl

end Worker

/-- **Pixels in, detections out.** Every inference reply that a worker has sent has the documented
header, and decodes to what the program of the model that the manager held makes of the tensor of
that very request, or to no detections if there was no model or the program failed on this tensor.
The library may load what it likes. -/
theorem inference_replies (hb : Behaves lib beh view) {native : W} {t : TfliteState W} {k : ℕ}
    {a : Sent (TfliteState W)}
    (hboot : (startup (tfliteBackend lib) cli).run ⟨selectBackend cli, native⟩ = (.ok (), t))
    (h : (loop cli json (tfliteBackend lib)).exec (.initial cli t) events = some w)
    (ha : w.sent[k]? = some a) :
    ∃ msg, w.received[k]? = some msg ∧ (classifyMessage json msg = false →
      ∃ payload, a.reply = [.json documentedHeader, .raw payload] ∧
        Decodes payload (detections beh (configOf cli) (held a.before) msg)) := by
  have hdispatch : ∀ s msg, Detects beh view (configOf cli) s →
      Detects beh view (configOf cli)
          ((dispatch json (tfliteBackend lib) msg).run s).2 ∧
        ∀ reply, ((dispatch json (tfliteBackend lib) msg).run s).1 = .ok reply →
          classifyMessage json msg = false →
            ∃ payload, reply = [.json documentedHeader, .raw payload] ∧
              Decodes payload (detections beh (configOf cli) (held s) msg) := fun s msg hs =>
    ⟨hs.handle hb json msg, fun _ hreply hclass => hs.inference hb hclass hreply⟩
  have hinitial : Ledger (Detects beh view (configOf cli)) (fun msg s reply =>
      classifyMessage json msg = false →
        ∃ payload, reply = [.json documentedHeader, .raw payload] ∧
          Decodes payload (detections beh (configOf cli) (held s) msg)) (.initial cli t) :=
    .initial (startup_detects hb hboot).1
  have hledger := Machine.exec_invariant (fun _ _ _ hl hs => hl.step hdispatch hs) hinitial h
  exact hledger.getElem? ha

/-- A model, a bright frame and one of the wrong size. -/
def brightRun : List Event :=
  exchange [transferHeader "ssd", [1]] ++ exchange [[], [9, 200]] ++ exchange [[], [9]]

/-- The worker has no model, then holds the first one, and keeps it. -/
theorem loop_refines_bright :
    ∃ w, (loop cpuCli transferJson (tfliteBackend brightTflite)).exec
        (.initial cpuCli ⟨selectBackend cpuCli, ⟨[], "", none, []⟩⟩) brightRun = some w ∧
      held w.backend = (detector transferJson brightBehaviour (configOf cpuCli)).after none
        w.received := by
  have hrun : ((loop cpuCli transferJson (tfliteBackend brightTflite)).exec
      (.initial cpuCli ⟨selectBackend cpuCli, ⟨[], "", none, []⟩⟩) brightRun).any
        (fun w => match w.phase with | .receiving => true | _ => false) = true := by
    decide +kernel
  obtain ⟨w, hw, hphase⟩ := (Option.any_eq_true ..).mp hrun
  refine ⟨w, hw, (loop_refines bright_behaves bright_loads rfl hw).2 ?_⟩
  split at hphase
  · assumption
  · cases hphase

/-- The bright frame is answered with its detection. -/
theorem inference_replies_bright :
    ∃ w a payload, (loop cpuCli transferJson (tfliteBackend brightTflite)).exec
        (.initial cpuCli ⟨selectBackend cpuCli, ⟨[], "", none, []⟩⟩) brightRun = some w ∧
      w.sent[1]? = some a ∧ a.reply = [.json documentedHeader, .raw payload] ∧
      Decodes payload (some ⟨[], [⟨0x40000000⟩], [⟨0x3F000000⟩], [⟨0x3F800000⟩]⟩) := by
  have hrun : ((loop cpuCli transferJson (tfliteBackend brightTflite)).exec
      (.initial cpuCli ⟨selectBackend cpuCli, ⟨[], "", none, []⟩⟩) brightRun).any
        (fun w => w.sent.map (fun a => held a.before) =
            [none, some ([1], some "ssd"), some ([1], some "ssd")] ∧
          w.received = [[transferHeader "ssd", [1]], [[], [9, 200]], [[], [9]]]) = true := by
    decide +kernel
  obtain ⟨w, hw, htest⟩ := (Option.any_eq_true ..).mp hrun
  obtain ⟨hbefore, hreceived⟩ := of_decide_eq_true htest
  have hone := congrArg (·[1]?) hbefore
  rw [List.getElem?_map] at hone
  obtain ⟨a, ha, hheld⟩ := Option.map_eq_some_iff.mp hone
  obtain ⟨msg, hmsg, hreply⟩ := inference_replies bright_behaves rfl hw ha
  rw [hreceived] at hmsg
  cases hmsg
  obtain ⟨payload, hpayload, hdecodes⟩ := hreply (by decide)
  refine ⟨w, a, payload, hw, ha, hpayload, ?_⟩
  have hdetections : detections brightBehaviour (configOf cpuCli) (some ([1], some "ssd"))
      [[], [9, 200]] = some ⟨[], [⟨0x40000000⟩], [⟨0x3F000000⟩], [⟨0x3F800000⟩]⟩ := by
    decide +kernel
  rw [hheld, hdetections] at hdecodes
  exact hdecodes

end FrigateZmqDetector.Worker
