import FrigateZmqDetector.Protocol.FirstModel
import FrigateZmqDetector.Tflite.Semantics

/-!
# Replies do not depend on earlier requests

`replyOf` answers a message from the configuration, the model and its name alone. Under a library
as described in `Tflite.Semantics` a worker answers like that after any requests
(`dispatch_refines`), so two workers with the same model give the same replies, whatever either was
sent before (`replies_stateless`). Deterministic inference alone is not enough for that: a library
may remember in an input tensor that the sidecar never writes, or in what it loads
(`replies_remember`).
-/

namespace FrigateZmqDetector.Protocol

open Lib Lib.Eff Tflite

variable {W : Type} {json : SerdeJson} {lib : EdgefirstTflite W} {beh : Behaviour} {view : View W}
  {c : Config} {msg : ZmqMessage} {s s' : TfliteState W}

/-! ### Sessions -/

inductive Request where
  | message (msg : ZmqMessage)
  | warmup

def serve (json : SerdeJson) (lib : EdgefirstTflite W) (s : TfliteState W) :
    Request → TfliteState W
  | .message msg => handle json lib s msg
  | .warmup => ((TfliteManager.warmup lib).run s).2

/-- What a worker has been through: perhaps a model from a file, and then requests. -/
structure Session (W : Type) where
  native : W
  file : Option (Bytes × Option String)
  requests : List Request

/-- A manager as it enters the request loop. -/
def Session.started (x : Session W) (lib : EdgefirstTflite W) (c : Config) : TfliteState W :=
  match x.file with
  | some (data, name) => ((TfliteManager.cacheModel lib data name).run ⟨c.manager, x.native⟩).2
  | none => ⟨c.manager, x.native⟩

def Session.state (x : Session W) (json : SerdeJson) (lib : EdgefirstTflite W) (c : Config) :
    TfliteState W :=
  x.requests.foldl (serve json lib) (x.started lib c)

/-! ### The reply, without the state -/

/-- **The answer to a message**, for a worker with this model under this name. -/
def replyOf (json : SerdeJson) (beh : Behaviour) (c : Config) (model : Option Bytes)
    (name : Option String) (msg : ZmqMessage) : Outcome SidecarError Reply :=
  let asked := nameOf json msg
  let same := model.isSome && name == some asked
  match classifyMessage json msg, msg[1]? with
  | true, none => .ok (modelAvailabilityReply asked same name)
  | true, some data =>
    if model.isSome then
      if same then .ok (modelLoadedReply asked true true (some "model already loaded") none)
      else .ok (modelLoadedReply asked false false (some "different model already loaded")
        (some (name.getD "unknown")))
    else if beh.accepts c data then
      .ok (modelLoadedReply asked true true (some "model loaded") none)
    else .ok modelErrorReply
  | false, none => .ok zeroInferenceReply
  | false, some input =>
    match model with
    | none => .ok zeroInferenceReply
    | some data =>
      match beh.infer (c.program data) input with
      | .ok output => .ok [.json inferenceHeader, .raw output]
      | .err _ => .ok zeroInferenceReply
      | .panic => .panic

/-! ### The invariant -/

/-- The manager has its configuration, and an interpreter that runs the program of its model
whenever it has a model. -/
structure Serving (beh : Behaviour) (view : View W) (c : Config) (s : TfliteState W) : Prop where
  delegatePath : s.manager.delegatePath = c.delegatePath
  useDelegate : s.manager.useDelegate = c.useDelegate
  threads : s.manager.threads = c.threads
  empty : s.manager.interpreter = none → s.manager.modelBytes = none
  runs : ∀ interp, s.manager.interpreter = some interp → ∃ data,
    s.manager.modelBytes = some data ∧ Runs beh view s.native interp (c.program data)

namespace Serving

theorem fresh (w : W) : Serving beh view c ⟨c.manager, w⟩ :=
  ⟨rfl, rfl, rfl, fun _ => rfl, fun _ h => by cases h⟩

variable (h : Serving beh view c s)
include h

theorem isReady_eq : s.manager.isReady = s.manager.modelBytes.isSome := by
  unfold TfliteManager.isReady
  cases hi : s.manager.interpreter with
  | none =>
    rw [h.empty hi]
    rfl
  | some interp =>
    obtain ⟨data, hdata, -⟩ := h.runs interp hi
    rw [hdata]
    rfl

/-- A step that leaves the record alone and the interpreter ready. -/
theorem keep (hm : s'.manager = s.manager)
    (hruns : ∀ interp p, s.manager.interpreter = some interp → Runs beh view s.native interp p →
      Runs beh view s'.native interp p) : Serving beh view c s' := by
  refine ⟨hm ▸ h.delegatePath, hm ▸ h.useDelegate, hm ▸ h.threads, fun hi => ?_,
    fun interp hi => ?_⟩
  · rw [hm] at hi ⊢
    exact h.empty hi
  · rw [hm] at hi ⊢
    obtain ⟨data, hdata, hrun⟩ := h.runs interp hi
    exact ⟨data, hdata, hruns interp _ hi hrun⟩

variable (hb : Behaves lib beh view)
include hb

/-- **What caching a model comes to**, for a manager that has none. -/
theorem cacheModel (hready : s.manager.isReady = false) (data : Bytes) (name : Option String) :
    Succeeds ((TfliteManager.cacheModel lib data name).run s) (Loads lib beh view)
        (beh.accepts c data) (fun _ s' => Serving beh view c s') ∧
      Serving beh view c ((TfliteManager.cacheModel lib data name).run s).2 := by
  have hnone : s.manager.interpreter = none := Option.isNone_iff_eq_none.mp (by
    simpa [TfliteManager.isReady] using hready)
  rcases buildModel_refines hb c h.delegatePath h.useDelegate h.threads data s.native with
    ⟨⟨model, interp⟩, w', hrun, hruns, hacc⟩ | ⟨e, w', hrun, hacc⟩
  · have hcached : (TfliteManager.cacheModel lib data name).run s =
        (.ok (), ⟨s.manager.loaded data name model interp, w'⟩) := by rw [cacheModel_run, hrun]
    have hserving : Serving beh view c ⟨s.manager.loaded data name model interp, w'⟩ := by
      refine ⟨h.delegatePath, h.useDelegate, h.threads, fun hi => ?_, fun interp' hi => ?_⟩
      · cases hi
      · cases hi
        exact ⟨data, rfl, hruns⟩
    rw [hcached]
    exact ⟨Or.inl ⟨(), _, rfl, hserving, hacc⟩, hserving⟩
  · have hcached : (TfliteManager.cacheModel lib data name).run s = (.err e, ⟨s.manager, w'⟩) := by
      rw [cacheModel_run, hrun]
    rw [hcached]
    refine ⟨Or.inr ⟨e, _, rfl, hacc⟩, h.keep rfl fun interp p hi => ?_⟩
    rw [hnone] at hi
    cases hi

/-- **What a run of the backend comes to**, for a manager with this model. -/
theorem run {data : Bytes} (hdata : s.manager.modelBytes = some data) (input : Bytes) :
    ((TfliteManager.run lib input).run s).1.forget = beh.infer (c.program data) input ∧
      Serving beh view c ((TfliteManager.run lib input).run s).2 := by
  cases hi : s.manager.interpreter with
  | none =>
    rw [h.empty hi] at hdata
    cases hdata
  | some interp =>
    obtain ⟨data', hdata', hruns⟩ := h.runs interp hi
    rw [hdata] at hdata'
    cases hdata'
    rw [run_of_interpreter hi]
    refine ⟨(runInference_refines hb.toInfers hruns input).1, h.keep rfl fun interp' p hi' hp => ?_⟩
    rw [hi] at hi'
    cases hi'
    exact (runInference_refines hb.toInfers hp input).2

theorem warmup : Serving beh view c ((TfliteManager.warmup lib).run s).2 := by
  cases hi : s.manager.interpreter with
  | none =>
    unfold TfliteManager.warmup
    rw [run_bind_of_ok run_get, hi]
    exact h
  | some interp =>
    rw [warmup_of_interpreter hi]
    refine h.keep rfl fun interp' p hi' hp => ?_
    rw [hi] at hi'
    cases hi'
    exact warmupInference_runs hb.toInfers hp

end Serving

/-! ### One message -/

section Dispatch

variable (hb : Behaves lib beh view) (h : Serving beh view c s)
include hb h

/-- **What a model-management message comes to**: a worker that keeps serving, and an answer from
its model alone. -/
theorem model_refines (hclass : classifyMessage json msg = true) :
    Serving beh view c (handle json lib s msg) ∧
      ((s.manager.modelBytes = none → Loads lib beh view) →
        ((dispatch json (tfliteBackend lib) msg).run s).1 =
          replyOf json beh c s.manager.modelBytes s.manager.modelName msg) := by
  have hready : (tfliteBackend lib).isReady s = s.manager.modelBytes.isSome := h.isReady_eq
  have hsame : (tfliteBackend lib).isModelReady s (nameOf json msg) =
      (s.manager.modelBytes.isSome && s.manager.modelName == some (nameOf json msg)) := by
    rw [← h.isReady_eq]
    rfl
  have hnone : (tfliteBackend lib).isReady s = false → s.manager.modelBytes = none := by
    intro hr
    rwa [hready, Option.isSome_eq_false_iff, Option.isNone_iff_eq_none] at hr
  have hcases := handleModelRequest_cases (tfliteBackend lib) s hclass
  unfold handle replyOf
  rw [dispatch, if_pos hclass]
  dsimp only
  rw [hclass, ← hsame, ← hready]
  rcases hrun : (handleModelRequest json (tfliteBackend lib) msg).run s with ⟨out, s'⟩
  rw [hrun] at hcases
  cases hcases with
  | query hlen =>
    rw [run_orElse_of_ok hrun, List.getElem?_eq_none (by omega)]
    exact ⟨h, fun _ => rfl⟩
  | same hdata hr hname =>
    rw [run_orElse_of_ok hrun, hdata]
    refine ⟨h, fun _ => ?_⟩
    dsimp only
    rw [if_pos hr, if_pos hname]
  | different hdata hr hname =>
    rw [run_orElse_of_ok hrun, hdata]
    refine ⟨h, fun _ => ?_⟩
    dsimp only
    rw [if_pos hr, if_neg (Bool.eq_false_iff.mp hname)]
    rfl
  | @cached data _ hdata hr hc =>
    rw [run_orElse_of_ok hrun, hdata]
    rcases h.cacheModel hb hr data (some (nameOf json msg)) with
      ⟨⟨_, s₁, hrun₁, hserving, hacc⟩ | ⟨e, s₁, hrun₁, -⟩, -⟩ <;> cases hc.symm.trans hrun₁
    refine ⟨hserving, fun hload => ?_⟩
    dsimp only
    rw [if_neg (Bool.eq_false_iff.mp hr), if_pos (hacc (hload (hnone hr)))]
  | @refused data _ _ hdata hr hc =>
    rw [run_orElse_of_err hrun, hdata]
    rcases h.cacheModel hb hr data (some (nameOf json msg)) with
      ⟨⟨_, s₁, hrun₁, -⟩ | ⟨e, s₁, hrun₁, hacc⟩, hserving⟩ <;> cases hc.symm.trans hrun₁
    rw [hrun₁] at hserving
    refine ⟨hserving, fun hload => ?_⟩
    dsimp only
    rw [if_neg (Bool.eq_false_iff.mp hr), if_neg (Bool.eq_false_iff.mp (hacc (hload (hnone hr))))]
  | panicked _ _ hc => exact absurd hc cacheModel_ne_panic

/-- **What an inference message comes to.** -/
theorem inference_refines (hclass : classifyMessage json msg = false) :
    Serving beh view c (handle json lib s msg) ∧
      ((dispatch json (tfliteBackend lib) msg).run s).1 =
        replyOf json beh c s.manager.modelBytes s.manager.modelName msg := by
  have hready : (tfliteBackend lib).isReady s = s.manager.modelBytes.isSome := h.isReady_eq
  unfold handle replyOf
  rw [dispatch_inference hclass, hready, hclass]
  cases hdata : msg[1]? with
  | none => exact ⟨h, rfl⟩
  | some input =>
    dsimp only
    cases hmodel : s.manager.modelBytes with
    | none => exact ⟨h, rfl⟩
    | some data =>
      rw [Option.isSome_some, if_pos rfl]
      have hout : (((tfliteBackend lib).run input).run s).1.forget =
          beh.infer (c.program data) input := (h.run hb hmodel input).1
      have hserving : Serving beh view c (((tfliteBackend lib).run input).run s).2 :=
        (h.run hb hmodel input).2
      rcases hrun : ((tfliteBackend lib).run input).run s with ⟨output | e | _, s'⟩
      all_goals
        rw [hrun] at hout hserving
        dsimp only
        rw [← hout]
        exact ⟨hserving, rfl⟩

/-- **A worker keeps serving**, whatever message it is sent. -/
theorem Serving.handle (json : SerdeJson) (msg : ZmqMessage) :
    Serving beh view c (handle json lib s msg) := by
  cases hclass : classifyMessage json msg with
  | true => exact (model_refines hb h hclass).1
  | false => exact (inference_refines hb h hclass).1

/-- **A message is answered from the configuration and the model alone.** -/
theorem dispatch_refines (json : SerdeJson) (msg : ZmqMessage)
    (hload : s.manager.modelBytes = none → Loads lib beh view) :
    ((dispatch json (tfliteBackend lib) msg).run s).1 =
      replyOf json beh c s.manager.modelBytes s.manager.modelName msg := by
  cases hclass : classifyMessage json msg with
  | true => exact (model_refines hb h hclass).2 hload
  | false => exact (inference_refines hb h hclass).2

end Dispatch

/-! ### Whole sessions -/

section Sessions

variable (hb : Behaves lib beh view)
include hb

theorem serving_started (x : Session W) (c : Config) : Serving beh view c (x.started lib c) := by
  unfold Session.started
  cases x.file with
  | none => exact .fresh x.native
  | some file =>
    have hfresh : Serving beh view c ⟨c.manager, x.native⟩ := .fresh x.native
    exact (hfresh.cacheModel hb rfl file.1 file.2).2

theorem Serving.serve (h : Serving beh view c s) (json : SerdeJson) (request : Request) :
    Serving beh view c (serve json lib s request) := by
  cases request with
  | message msg => exact h.handle hb json msg
  | warmup => exact h.warmup hb

theorem serving_state (x : Session W) (json : SerdeJson) (c : Config) :
    Serving beh view c (x.state json lib c) := by
  unfold Session.state
  generalize hs : x.started lib c = s
  have h : Serving beh view c s := hs ▸ serving_started hb x c
  clear hs
  induction x.requests generalizing s with
  | nil => exact h
  | cons request requests ih => exact ih _ (h.serve hb json request)

/-- **Replies do not depend on what earlier requests did.** Two workers with one configuration that
hold the same model under the same name give the same answer to every message, if what is in the
input tensors after the first one of a new interpreter is a function of its program (`Behaves`). A
worker without a model may be sent one, and then loading has to be a function of its bytes as well. -/
theorem replies_stateless (json : SerdeJson) (c : Config) (x y : Session W)
    (hbytes : (x.state json lib c).manager.modelBytes = (y.state json lib c).manager.modelBytes)
    (hname : (x.state json lib c).manager.modelName = (y.state json lib c).manager.modelName)
    (hload : (x.state json lib c).manager.modelBytes = none → Loads lib beh view)
    (msg : ZmqMessage) :
    ((dispatch json (tfliteBackend lib) msg).run (x.state json lib c)).1 =
      ((dispatch json (tfliteBackend lib) msg).run (y.state json lib c)).1 := by
  rw [dispatch_refines hb (serving_state hb x json c) json msg hload,
    dispatch_refines hb (serving_state hb y json c) json msg (hbytes ▸ hload), hbytes, hname]

end Sessions

/-! ### A library with one input tensor -/

/-- The state of a library that keeps the latest model, delegate and interpreter, with the input
tensor of the interpreter and its output tensors. -/
structure Slot where
  model : Bytes
  delegate : String
  interpreter : Option (Program × Bytes)
  outputs : List (List Binary32)

/-- One detection of class two, with a score of one half if the second byte is bright. -/
def brightOutputs (input : Bytes) : List (List Binary32) :=
  [[], [⟨0x40000000⟩], [if 127 < input.getD 1 0 then ⟨0x3F000000⟩ else .zero], [⟨0x3F800000⟩]]

/-- A library whose models take two bytes. An invocation overwrites its input. -/
def brightTflite : EdgefirstTflite Slot where
  modelFromBytes data w :=
    if data = [] then (.error "empty", w) else (.ok ⟨1⟩, { w with model := data })
  dropModel _ w := w
  interpreterBuilder w := (.ok ⟨2, none, []⟩, w)
  delegateLoad path w := (.ok ⟨3⟩, { w with delegate := path })
  build b _ w := (.ok ⟨4⟩, { w with
    interpreter := some (⟨w.model, b.threads, b.delegates.map fun _ => w.delegate⟩, [0, 0]) })
  inputsMut _ w := (.ok [⟨5, 2⟩], w)
  copyFromSlice _ bytes w :=
    if bytes.length = 2 then
      (.ok (), { w with interpreter := w.interpreter.map fun x => (x.1, bytes) })
    else (.error "size", w)
  invoke _ w := (.ok (), { w with
    interpreter := w.interpreter.map fun x => (x.1, [255, 255])
    outputs := brightOutputs ((w.interpreter.map Prod.snd).getD []) })
  outputs _ _ := .ok [⟨0⟩, ⟨1⟩, ⟨2⟩, ⟨3⟩]
  asSliceF32 t w := .ok (w.outputs.getD t.addr [])

def brightBehaviour : Behaviour where
  validates data := !decide (data = [])
  makesBuilder := true
  loadsDelegate _ := true
  builds _ := true
  inputSizes _ := some [2]
  others _ := []
  copies _ bytes := decide (bytes.length = 2)
  invokes _ _ := true
  outputs _ ins := some ((brightOutputs (ins.getD 0 [])).map some)

def slotView : View Slot where
  model w _ := some w.model
  delegate w _ := some w.delegate
  interpreter w _ := w.interpreter.map fun x => (x.1, [x.2])

theorem bright_behaves : Behaves brightTflite brightBehaviour slotView where
  modelFromBytes data w model w' h := by
    simp only [brightTflite] at h
    split_ifs at h
    · cases h
    · cases h
      rfl
  interpreterBuilder w := ⟨rfl, fun _ _ h => by cases h; rfl⟩
  delegateLoad path w := ⟨rfl, fun _ _ h => by cases h; rfl⟩
  build b model data paths w interp w' hmodel hdelegates h := by
    have hpaths : b.delegates.map (fun _ => w.delegate) = paths := by
      have hsome : (b.delegates.map fun _ => w.delegate).map some = paths.map some := by
        rw [List.map_map]
        exact hdelegates
      exact (List.map_injective_iff.mpr (Option.some_injective _)) hsome
    cases hmodel
    cases h
    rw [← hpaths]
    exact ⟨[[0, 0]], rfl⟩
  inputsMut interp p ins w h := by
    obtain ⟨⟨p', input⟩, -, hpair⟩ := Option.map_eq_some_iff.mp h
    cases hpair
    exact ⟨rfl, fun sizes hsizes => by cases hsizes; rfl, h⟩
  copyFromSlice interp p ins w t ts w' bytes h hin := by
    cases hin
    obtain ⟨⟨p', input⟩, hslot, hpair⟩ := Option.map_eq_some_iff.mp h
    cases hpair
    by_cases hlen : bytes.length = 2
    · simp [brightTflite, brightBehaviour, slotView, hlen, hslot, Except.isOk, Except.toBool]
    · simp [brightTflite, brightBehaviour, slotView, hlen, hslot, Except.isOk, Except.toBool]
  invoke interp p ins w h := by
    obtain ⟨⟨p', input⟩, hslot, hpair⟩ := Option.map_eq_some_iff.mp h
    cases hpair
    refine ⟨rfl, ⟨[[255, 255]], ?_, rfl, rfl⟩, fun _ => ?_⟩
    · simp [brightTflite, slotView, hslot]
    · simp [brightTflite, brightBehaviour, readOutputs, hslot, brightOutputs, Except.toOption]
  others b model data paths w interp w' ins _ _ _ h := by
    obtain ⟨⟨p', input⟩, -, hpair⟩ := Option.map_eq_some_iff.mp h
    cases hpair
    rfl

theorem bright_loads : Loads brightTflite brightBehaviour slotView where
  modelFromBytes data w := by
    by_cases hdata : data = []
    · simp [brightTflite, brightBehaviour, hdata, Except.isOk, Except.toBool]
    · simp [brightTflite, brightBehaviour, hdata, Except.isOk, Except.toBool]
  interpreterBuilder w := rfl
  delegateLoad path w := rfl
  build b model data paths w _ _ := rfl

/-- A worker that has seen a bright frame and one of the wrong size, and one that has only warmed
up, give the same answer to a dark frame. -/
theorem replies_stateless_bright :
    let c : Config := ⟨1, "", false⟩
    let load := Request.message [transferHeader "ssd", [1]]
    let x : Session Slot := ⟨⟨[], "", none, []⟩, none,
      [load, .message [[], [9, 200]], .message [[], [9]]]⟩
    let y : Session Slot := ⟨⟨[7], "", none, []⟩, none, [load, .warmup]⟩
    ((dispatch transferJson (tfliteBackend brightTflite) [[], [9, 1]]).run
        (x.state transferJson brightTflite c)).1 =
      ((dispatch transferJson (tfliteBackend brightTflite) [[], [9, 1]]).run
        (y.state transferJson brightTflite c)).1 := by
  intro c load x y
  exact replies_stateless bright_behaves transferJson c x y (by decide +kernel) (by decide +kernel)
    (fun _ => bright_loads) _

/-! ### Libraries that remember -/

/-- The state of a library whose models take a mask as well, in a second input tensor. -/
structure Memory where
  model : Bytes
  /-- A model has been refused. -/
  refused : Bool
  interpreter : Option (Program × Bytes × Bytes)
  outputs : List (List Binary32)

/-- A detection where the mask is bright. -/
def maskOutputs (mask : Bytes) : List (List Binary32) :=
  [[], [⟨0x40000000⟩], [if 127 < mask.getD 0 0 then ⟨0x3F000000⟩ else .zero], [⟨0x3F800000⟩]]

/-- A library that does not clear the memory of a new interpreter: after a model that was refused,
its mask is bright. -/
def maskTflite : EdgefirstTflite Memory where
  modelFromBytes data w :=
    if data = [] then (.error "empty", { w with refused := true })
    else (.ok ⟨1⟩, { w with model := data })
  dropModel _ w := w
  interpreterBuilder w := (.ok ⟨2, none, []⟩, w)
  delegateLoad _ w := (.error "no delegate", w)
  build b _ w := (.ok ⟨4⟩, { w with
    interpreter := some (⟨w.model, b.threads, []⟩, [0, 0], [if w.refused then 255 else 0]) })
  inputsMut _ w := (.ok [⟨5, 2⟩, ⟨6, 1⟩], w)
  copyFromSlice _ bytes w :=
    if bytes.length = 2 then
      (.ok (), { w with interpreter := w.interpreter.map fun x => (x.1, bytes, x.2.2) })
    else (.error "size", w)
  invoke _ w := (.ok (), { w with
    outputs := maskOutputs ((w.interpreter.map fun x => x.2.2).getD []) })
  outputs _ _ := .ok [⟨0⟩, ⟨1⟩, ⟨2⟩, ⟨3⟩]
  asSliceF32 t w := .ok (w.outputs.getD t.addr [])

def maskBehaviour : Behaviour where
  validates data := !decide (data = [])
  makesBuilder := true
  loadsDelegate _ := false
  builds _ := true
  inputSizes _ := some [2, 1]
  others _ := [[0]]
  copies _ bytes := decide (bytes.length = 2)
  invokes _ _ := true
  outputs _ ins := some ((maskOutputs (ins.getD 1 [])).map some)

def maskView : View Memory where
  model w _ := some w.model
  delegate _ _ := none
  interpreter w _ := w.interpreter.map fun x => (x.1, [x.2.1, x.2.2])

theorem mask_infers : Infers maskTflite maskBehaviour maskView where
  modelFromBytes data w model w' h := by
    simp only [maskTflite] at h
    split_ifs at h
    · cases h
    · cases h
      rfl
  interpreterBuilder w := ⟨rfl, fun _ _ h => by cases h; rfl⟩
  delegateLoad path w := ⟨rfl, fun _ _ h => by cases h⟩
  build b model data paths w interp w' hmodel hdelegates h := by
    have hpaths : paths = [] := by
      cases paths with
      | nil => rfl
      | cons path paths =>
        obtain ⟨d, ds, -, hd, -⟩ := List.map_eq_cons_iff.mp hdelegates
        cases hd
    cases hmodel
    cases h
    rw [hpaths]
    exact ⟨_, rfl⟩
  inputsMut interp p ins w h := by
    obtain ⟨⟨p', input, mask⟩, -, hpair⟩ := Option.map_eq_some_iff.mp h
    cases hpair
    exact ⟨rfl, fun sizes hsizes => by cases hsizes; rfl, h⟩
  copyFromSlice interp p ins w t ts w' bytes h hin := by
    cases hin
    obtain ⟨⟨p', input, mask⟩, hslot, hpair⟩ := Option.map_eq_some_iff.mp h
    cases hpair
    by_cases hlen : bytes.length = 2
    · simp [maskTflite, maskBehaviour, maskView, hlen, hslot, Except.isOk, Except.toBool]
    · simp [maskTflite, maskBehaviour, maskView, hlen, hslot, Except.isOk, Except.toBool]
  invoke interp p ins w h := by
    obtain ⟨⟨p', input, mask⟩, hslot, hpair⟩ := Option.map_eq_some_iff.mp h
    cases hpair
    refine ⟨rfl, ⟨[input, mask], ?_, rfl, rfl⟩, fun _ => ?_⟩
    · simp [maskTflite, maskView, hslot]
    · simp [maskTflite, maskBehaviour, readOutputs, hslot, maskOutputs, Except.toOption]

/-- A library that runs out of memory over a model that it has refused. -/
def leakyTflite : EdgefirstTflite Slot :=
  { brightTflite with
    modelFromBytes := fun data w =>
      if data = [] then (.error "empty", { w with model := [0] })
      else if w.model = [] then (.ok ⟨1⟩, { w with model := data })
      else (.error "memory", w) }

theorem leaky_behaves : Behaves leakyTflite brightBehaviour slotView :=
  { bright_behaves with
    modelFromBytes := fun data w model w' h => by
      simp only [leakyTflite] at h
      split_ifs at h <;> cases h
      rfl }

/-- The table of an inference reply. -/
def payloadOf : Outcome SidecarError Reply → Bytes
  | .ok [.json _, .raw payload] => payload
  | _ => []

/-- The flag of a reply to a model message. -/
def saysLoaded : Outcome SidecarError Reply → Bool
  | .ok [.json v] => match v.get "model_loaded" with
    | some (.bool loaded) => loaded
    | _ => false
  | _ => false

/-- **What a library may remember.** A library that runs the same program on the same tensors to the
same end may still answer differently after a request that failed: by what it leaves in an input
tensor that the sidecar never writes, or by whether it loads the next model. -/
theorem replies_remember :
    let c : Config := ⟨1, "", false⟩
    let refused := Request.message [transferHeader "ssd", []]
    let load := Request.message [transferHeader "ssd", [1]]
    (Infers maskTflite maskBehaviour maskView ∧ ∃ native : Memory,
      let x : Session Memory := ⟨native, none, [load]⟩
      let y : Session Memory := ⟨native, none, [refused, load]⟩
      (x.state transferJson maskTflite c).manager.modelBytes = some [1] ∧
      (y.state transferJson maskTflite c).manager.modelBytes = some [1] ∧
      (x.state transferJson maskTflite c).manager.modelName =
        (y.state transferJson maskTflite c).manager.modelName ∧
      ((dispatch transferJson (tfliteBackend maskTflite) [[], [9, 1]]).run
          (x.state transferJson maskTflite c)).1 ≠
        ((dispatch transferJson (tfliteBackend maskTflite) [[], [9, 1]]).run
          (y.state transferJson maskTflite c)).1) ∧
    Behaves leakyTflite brightBehaviour slotView ∧ ∃ native : Slot,
      let x : Session Slot := ⟨native, none, []⟩
      let y : Session Slot := ⟨native, none, [refused]⟩
      (x.state transferJson leakyTflite c).manager.modelBytes = none ∧
      (y.state transferJson leakyTflite c).manager.modelBytes = none ∧
      (x.state transferJson leakyTflite c).manager.modelName =
        (y.state transferJson leakyTflite c).manager.modelName ∧
      ((dispatch transferJson (tfliteBackend leakyTflite) [transferHeader "ssd", [1]]).run
          (x.state transferJson leakyTflite c)).1 ≠
        ((dispatch transferJson (tfliteBackend leakyTflite) [transferHeader "ssd", [1]]).run
          (y.state transferJson leakyTflite c)).1 := by
  intro c refused load
  refine ⟨⟨mask_infers, ⟨[], false, none, []⟩, by decide +kernel, by decide +kernel,
    by decide +kernel, fun h => ?_⟩, leaky_behaves, ⟨[], "", none, []⟩, by decide +kernel,
    by decide +kernel, by decide +kernel, fun h => ?_⟩
  · have hpayload := congrArg payloadOf h
    revert hpayload
    decide +kernel
  · have hloaded := congrArg saysLoaded h
    revert hloaded
    decide +kernel

end FrigateZmqDetector.Protocol
