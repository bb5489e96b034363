import FrigateZmqDetector.Json

/-!
# The message handlers

The functions of `protocol.rs`, for any backend, and the dispatch of the request loop over them. A
message is its list of frames. What the handlers only log (the shape an inference header names,
the sizes and durations) is left out.

* `handleModelRequest_cases`: the six ways a model-management message can go (`ModelRequest`);
* `handleInference_run`: what an inference request does, in closed form;
* `dispatch_traced`: which calls a message makes to the backend (`callsOf`).
-/

namespace FrigateZmqDetector.Protocol

open Lib Lib.Eff

/-- The frames of a received message. -/
abbrev ZmqMessage := List Bytes

inductive Frame where
  /-- The text of a JSON value. -/
  | json (value : Value)
  | raw (bytes : Bytes)
  deriving Repr

abbrev Reply := List Frame

/-- The size of a `(20, 6)` table of single-precision floats. -/
def expectedOutputBytes : ℕ := 20 * 6 * 4

/-- The message is for model management: its first frame is JSON with a `model_request` or a
`model_data` key. -/
def classifyMessage (json : SerdeJson) (msg : ZmqMessage) : Bool :=
  match msg[0]? with
  | some frame =>
    match json.fromSlice frame with
    | .ok val => (val.get "model_request").isSome || (val.get "model_data").isSome
    | .error _ => false
  | none => false

/-! ### Replies -/

/-- A value with a member set to a text, if there is one. -/
def setIfSome (resp : Value) (key : String) (text : Option String) : Value :=
  match text with
  | some text => resp.set key (.string text)
  | none => resp

/-- The answer to an availability query. -/
def modelAvailability (modelName : String) (loaded : Bool) (currentModel : Option String) : Value :=
  let resp := Value.ofMembers [
    ("model_available", .bool loaded),
    ("model_loaded", .bool loaded),
    ("model_name", .string modelName),
    ("message", .string (if loaded then "model loaded" else "model not loaded"))]
  if loaded then resp else setIfSome resp "current_model" currentModel

def modelAvailabilityReply (modelName : String) (loaded : Bool) (currentModel : Option String) :
    Reply :=
  [.json (modelAvailability modelName loaded currentModel)]

/-- The answer to a model transfer. -/
def modelLoaded (modelName : String) (saved loaded : Bool) (message currentModel : Option String) :
    Value :=
  let resp := Value.ofMembers [
    ("model_saved", .bool saved),
    ("model_loaded", .bool loaded),
    ("model_name", .string modelName)]
  setIfSome (setIfSome resp "message" message) "current_model" currentModel

def modelLoadedReply (modelName : String) (saved loaded : Bool)
    (message currentModel : Option String) : Reply :=
  [.json (modelLoaded modelName saved loaded message currentModel)]

/-- The answer to a model-management message that failed. -/
def modelError : Value :=
  .ofMembers [("model_available", .bool false), ("model_loaded", .bool false)]

def modelErrorReply : Reply := [.json modelError]

def inferenceHeader : Value :=
  .ofMembers [
    ("shape", .array [.number (.posInt 20), .number (.posInt 6)]),
    ("dtype", .string "float32")]

def zeros : Bytes := List.replicate expectedOutputBytes 0

def zeroInferenceReply : Reply := [.json inferenceHeader, .raw zeros]

/-! ### Handlers -/

section Handlers

variable (json : SerdeJson) {σ : Type} (b : DetectorBackend σ)

def parseFrame (frame : Bytes) : Fallible σ Value :=
  match json.fromSlice frame with
  | .ok val => pure val
  | .error e => throw (.json e)

/-- The model a header is about. -/
def requestedName (header : Value) : String :=
  ((header.get "model_name").bind Value.asStr).getD "unknown"

/-- Handle a model availability query or model data transfer. -/
def handleModelRequest (msg : ZmqMessage) : Fallible σ Reply :=
  if msg.isEmpty then throw (.zmq "empty model request")
  else do
    let header ← parseFrame json (← index msg 0)
    let name := requestedName header
    if msg.length = 1 then
      let s ← get
      return modelAvailabilityReply name (b.isModelReady s name) (b.modelName s)
    else
      let data ← okOr msg[1]? (.zmq "model transfer missing data frame")
      let s ← get
      if b.isReady s then
        let currentName := (b.modelName s).getD "unknown"
        if b.isModelReady s name then
          return modelLoadedReply name true true (some "model already loaded") none
        else
          return modelLoadedReply name false false (some "different model already loaded")
            (some currentName)
      else
        b.cacheModel data (some name)
        return modelLoadedReply name true true (some "model loaded") none

/-- Handle an inference request. The backend runs under the process watchdog, which ends the
process when the run takes too long. -/
def handleInference (msg : ZmqMessage) : Fallible σ Reply :=
  if msg.length < 2 then
    throw (.zmq s!"inference request needs 2 frames, got {msg.length}")
  else do
    let inputData ← index msg 1
    let s ← get
    let output ← if b.isReady s then (b.run inputData).orElse fun _ => zeros else pure zeros
    return [.json inferenceHeader, .raw output]

/-- What the request loop answers to a message. A handler that fails is answered for. -/
def dispatch (msg : ZmqMessage) : Fallible σ Reply :=
  if classifyMessage json msg then
    (handleModelRequest json b msg).orElse fun _ => modelErrorReply
  else
    (handleInference b msg).orElse fun _ => zeroInferenceReply

end Handlers

/-! ### What the replies say -/

theorem isObject_setIfSome (resp : Value) (key : String) (text : Option String) :
    (setIfSome resp key text).isObject = resp.isObject := by
  cases text with
  | none => rfl
  | some text => exact Value.isObject_set ..

theorem get_setIfSome_self {resp : Value} (h : resp.isObject = true) {key : String}
    (hkey : resp.get key = none) (text : Option String) :
    (setIfSome resp key text).get key = text.map .string := by
  cases text with
  | none => exact hkey
  | some text => exact Value.get_set_self h ..

theorem get_setIfSome_of_ne (resp : Value) {key key' : String} (h : key' ≠ key)
    (text : Option String) : (setIfSome resp key text).get key' = resp.get key' := by
  cases text with
  | none => rfl
  | some text => exact Value.get_set_of_ne h ..

/-- The availability answer: whether the model is loaded, under both keys, and the current model
only when it is not. -/
theorem get_modelAvailability (modelName : String) (loaded : Bool) (currentModel : Option String) :
    let v := modelAvailability modelName loaded currentModel
    v.isObject = true ∧ v.get "model_loaded" = some (.bool loaded) ∧
      v.get "model_available" = some (.bool loaded) ∧ v.get "model_saved" = none ∧
      v.get "current_model" = if loaded then none else currentModel.map .string := by
  have hget : ∀ key, key ≠ "current_model" →
      (modelAvailability modelName loaded currentModel).get key = findMember key [
        ("model_available", .bool loaded), ("model_loaded", .bool loaded),
        ("model_name", .string modelName),
        ("message", .string (if loaded then "model loaded" else "model not loaded"))] := by
    intro key hkey
    cases loaded with
    | true => exact Value.get_ofMembers (by simp) key
    | false => exact (get_setIfSome_of_ne _ hkey _).trans (Value.get_ofMembers (by simp) key)
  refine ⟨?_, by simp [hget, findMember], by simp [hget, findMember], by simp [hget, findMember], ?_⟩
  · cases loaded with
    | true => rfl
    | false => exact isObject_setIfSome ..
  · cases loaded with
    | true => exact (Value.get_ofMembers (by simp) _).trans (by simp [findMember])
    | false =>
      exact get_setIfSome_self rfl ((Value.get_ofMembers (by simp) _).trans (by simp [findMember])) _

/-- The transfer answer: whether the model was saved and whether it is loaded. -/
theorem get_modelLoaded (modelName : String) (saved loaded : Bool)
    (message currentModel : Option String) :
    let v := modelLoaded modelName saved loaded message currentModel
    v.isObject = true ∧ v.get "model_loaded" = some (.bool loaded) ∧
      v.get "model_available" = none ∧ v.get "model_saved" = some (.bool saved) ∧
      v.get "current_model" = currentModel.map .string := by
  have hget : ∀ key, key ≠ "current_model" → key ≠ "message" →
      (modelLoaded modelName saved loaded message currentModel).get key = findMember key [
        ("model_saved", .bool saved), ("model_loaded", .bool loaded),
        ("model_name", .string modelName)] := fun key hc hm =>
    ((get_setIfSome_of_ne _ hc _).trans (get_setIfSome_of_ne _ hm _)).trans
      (Value.get_ofMembers (by simp) key)
  refine ⟨?_, by simp [hget, findMember], by simp [hget, findMember], by simp [hget, findMember], ?_⟩
  · exact (isObject_setIfSome ..).trans (isObject_setIfSome ..)
  · have hmsg : "current_model" ≠ "message" := by decide
    exact get_setIfSome_self (isObject_setIfSome ..) ((get_setIfSome_of_ne _ hmsg _).trans
      ((Value.get_ofMembers (by simp) _).trans (by simp [findMember]))) _

/-! ### The handlers in closed form -/

variable {json : SerdeJson} {σ : Type} {b : DetectorBackend σ} {msg : ZmqMessage} {s : σ}

/-- The header of a message: its first frame, parsed. -/
def headerOf (json : SerdeJson) (msg : ZmqMessage) : Option Value :=
  msg[0]?.bind fun frame => (json.fromSlice frame).toOption

theorem headerOf_cons {frame : Bytes} {rest : List Bytes} {header : Value}
    (h : json.fromSlice frame = .ok header) : headerOf json (frame :: rest) = some header := by
  simp only [headerOf, List.getElem?_cons_zero, Option.bind_some, h, Except.toOption]

/-- The model a message is about: the text under `model_name` in its header, or `unknown`. -/
def nameOf (json : SerdeJson) (msg : ZmqMessage) : String :=
  match (headerOf json msg).bind (Value.get "model_name") with
  | some (.string name) => name
  | _ => "unknown"

theorem nameOf_cons {frame : Bytes} {rest : List Bytes} {header : Value}
    (h : json.fromSlice frame = .ok header) :
    nameOf json (frame :: rest) = requestedName header := by
  unfold nameOf requestedName
  rw [headerOf_cons h, Option.bind_some]
  rcases header.get "model_name" with _ | v
  · rfl
  · cases v <;> rfl

theorem exists_header (h : classifyMessage json msg = true) :
    ∃ frame rest header, msg = frame :: rest ∧ json.fromSlice frame = .ok header ∧
      ((header.get "model_request").isSome = true ∨ (header.get "model_data").isSome = true) := by
  cases msg with
  | nil => cases h
  | cons frame rest =>
    simp only [classifyMessage, List.getElem?_cons_zero] at h
    cases hp : json.fromSlice frame with
    | error e => simp [hp] at h
    | ok header =>
      rw [hp] at h
      exact ⟨frame, rest, header, rfl, hp, Bool.or_eq_true_iff.mp h⟩

theorem handleModelRequest_run {frame : Bytes} {rest : List Bytes} {header : Value}
    (h : json.fromSlice frame = .ok header) :
    (handleModelRequest json b (frame :: rest)).run s =
      match rest with
      | [] =>
        (.ok (modelAvailabilityReply (requestedName header)
          (b.isModelReady s (requestedName header)) (b.modelName s)), s)
      | data :: _ =>
        if b.isReady s then
          if b.isModelReady s (requestedName header) then
            (.ok (modelLoadedReply (requestedName header) true true
              (some "model already loaded") none), s)
          else
            (.ok (modelLoadedReply (requestedName header) false false
              (some "different model already loaded") (some ((b.modelName s).getD "unknown"))), s)
        else
          match (b.cacheModel data (some (requestedName header))).run s with
          | (.ok _, s') =>
            (.ok (modelLoadedReply (requestedName header) true true (some "model loaded")
              none), s')
          | (.err e, s') => (.err e, s')
          | (.panic, s') => (.panic, s') := by
  have hparse : (parseFrame json frame : Fallible σ Value) = pure header := by
    unfold parseFrame
    rw [h]
  unfold handleModelRequest
  rw [if_neg (by simp), run_bind_of_ok (run_index_of_some (List.getElem?_cons_zero ..)), hparse,
    run_bind_of_ok (run_pure _)]
  cases rest with
  | nil => rfl
  | cons data rest =>
    dsimp only
    rw [if_neg (by simp), List.getElem?_cons_succ, List.getElem?_cons_zero,
      run_bind_of_ok (run_okOr_some _ _), run_bind_of_ok run_get]
    split_ifs with hready hname
    · rfl
    · rfl
    · rcases hc : (b.cacheModel data (some (requestedName header))).run s with ⟨_ | e | _, s'⟩
      · rw [run_bind_of_ok hc]
        rfl
      · rw [run_bind_of_err hc]
      · rw [run_bind_of_panic hc]

/-- **What becomes of a model-management message.** -/
inductive ModelRequest (json : SerdeJson) (b : DetectorBackend σ) (msg : ZmqMessage) (s : σ) :
    Outcome SidecarError Reply × σ → Prop
  | query (h : msg.length = 1) : ModelRequest json b msg s
    (.ok (modelAvailabilityReply (nameOf json msg) (b.isModelReady s (nameOf json msg))
      (b.modelName s)), s)
  | same {data : Bytes} (h : msg[1]? = some data) (hready : b.isReady s = true)
    (hname : b.isModelReady s (nameOf json msg) = true) : ModelRequest json b msg s
    (.ok (modelLoadedReply (nameOf json msg) true true (some "model already loaded") none), s)
  | different {data : Bytes} (h : msg[1]? = some data) (hready : b.isReady s = true)
    (hname : b.isModelReady s (nameOf json msg) = false) : ModelRequest json b msg s
    (.ok (modelLoadedReply (nameOf json msg) false false (some "different model already loaded")
      (some ((b.modelName s).getD "unknown"))), s)
  | cached {data : Bytes} {s' : σ} (h : msg[1]? = some data) (hready : b.isReady s = false)
    (hc : (b.cacheModel data (some (nameOf json msg))).run s = (.ok (), s')) :
    ModelRequest json b msg s
    (.ok (modelLoadedReply (nameOf json msg) true true (some "model loaded") none), s')
  | refused {data : Bytes} {s' : σ} {e : SidecarError} (h : msg[1]? = some data)
    (hready : b.isReady s = false)
    (hc : (b.cacheModel data (some (nameOf json msg))).run s = (.err e, s')) :
    ModelRequest json b msg s (.err e, s')
  | panicked {data : Bytes} {s' : σ} (h : msg[1]? = some data) (hready : b.isReady s = false)
    (hc : (b.cacheModel data (some (nameOf json msg))).run s = (.panic, s')) :
    ModelRequest json b msg s (.panic, s')

theorem handleModelRequest_cases (b : DetectorBackend σ) (s : σ)
    (h : classifyMessage json msg = true) :
    ModelRequest json b msg s ((handleModelRequest json b msg).run s) := by
  obtain ⟨frame, rest, header, rfl, hp, -⟩ := exists_header h
  have hname : requestedName header = nameOf json (frame :: rest) := (nameOf_cons hp).symm
  rw [handleModelRequest_run hp, hname]
  cases rest with
  | nil => exact .query rfl
  | cons data rest =>
    dsimp only
    split_ifs with hready hsame
    · exact .same rfl hready hsame
    · exact .different rfl hready (Bool.eq_false_iff.mpr hsame)
    · have hready := Bool.eq_false_iff.mpr hready
      rcases hc : (b.cacheModel data _).run s with ⟨_ | e | _, s'⟩
      · exact .cached rfl hready hc
      · exact .refused rfl hready hc
      · exact .panicked rfl hready hc

theorem handleInference_run (b : DetectorBackend σ) (msg : ZmqMessage) (s : σ) :
    (handleInference b msg).run s =
      match msg with
      | _ :: inputData :: _ =>
        if b.isReady s then
          match (b.run inputData).run s with
          | (.ok output, s') => (.ok [.json inferenceHeader, .raw output], s')
          | (.err _, s') => (.ok zeroInferenceReply, s')
          | (.panic, s') => (.panic, s')
        else (.ok zeroInferenceReply, s)
      | _ => (.err (.zmq s!"inference request needs 2 frames, got {msg.length}"), s) := by
  match msg with
  | [] => rfl
  | [_] => rfl
  | frame :: inputData :: rest =>
    unfold handleInference
    rw [if_neg (by simp), run_bind_of_ok (run_index_of_some (by rfl)), run_bind_of_ok run_get]
    dsimp only
    split_ifs with hready
    · rcases hr : (b.run inputData).run s with ⟨output | e | _, s'⟩
      · rw [run_bind_of_ok (run_orElse_of_ok hr)]
        rfl
      · rw [run_bind_of_ok (run_orElse_of_err hr)]
        rfl
      · rw [run_bind_of_panic (run_orElse_of_panic hr)]
    · rfl

theorem dispatch_inference (h : classifyMessage json msg = false) :
    (dispatch json b msg).run s =
      match msg[1]? with
      | some inputData =>
        if b.isReady s then
          match (b.run inputData).run s with
          | (.ok output, s') => (.ok [.json inferenceHeader, .raw output], s')
          | (.err _, s') => (.ok zeroInferenceReply, s')
          | (.panic, s') => (.panic, s')
        else (.ok zeroInferenceReply, s)
      | none => (.ok zeroInferenceReply, s) := by
  rw [dispatch, if_neg (Bool.eq_false_iff.mp h)]
  have hrun := handleInference_run b msg s
  match msg with
  | [] | [_] => exact run_orElse_of_err hrun
  | _ :: inputData :: _ =>
    dsimp only [List.getElem?_cons_succ, List.getElem?_cons_zero] at hrun ⊢
    split_ifs at hrun ⊢ with hready
    · rcases hr : (b.run inputData).run s with ⟨output | e | _, s'⟩ <;> rw [hr] at hrun
      · exact run_orElse_of_ok hrun
      · exact run_orElse_of_ok hrun
      · exact run_orElse_of_panic hrun
    · exact run_orElse_of_ok hrun

theorem handleInference_keeps {γ : Type} {g : σ → γ} (h : ∀ input, Keeps g (b.run input))
    (msg : ZmqMessage) : Keeps g (handleInference b msg) := by
  intro s
  rw [handleInference_run]
  match msg with
  | [] | [_] => rfl
  | _ :: inputData :: _ =>
    have hs := h inputData s
    dsimp only
    split_ifs
    · rcases hr : (b.run inputData).run s with ⟨_ | _ | _, s'⟩ <;> rw [hr] at hs <;> exact hs
    · rfl

/-- **What holds of a backend after any message**: what is kept by caching a model when it is not
ready, and by running an inference when it is. -/
theorem dispatch_invariant {I : σ → Prop}
    (hcache : ∀ s data name, I s → b.isReady s = false → I ((b.cacheModel data name).run s).2)
    (hrun : ∀ s input, I s → b.isReady s = true → I ((b.run input).run s).2) (h : I s) :
    I ((dispatch json b msg).run s).2 := by
  cases hclass : classifyMessage json msg with
  | true =>
    unfold dispatch
    rw [if_pos hclass, run_orElse_snd]
    have hcases := handleModelRequest_cases b s hclass
    rcases hr : (handleModelRequest json b msg).run s with ⟨out, s'⟩
    rw [hr] at hcases
    cases hcases with
    | query | same | different => exact h
    | cached hdata hready hc | refused hdata hready hc | panicked hdata hready hc =>
      exact congrArg Prod.snd hc ▸ hcache s _ _ h hready
  | false =>
    rw [dispatch_inference hclass]
    cases msg[1]? with
    | none => exact h
    | some input =>
      dsimp only
      split_ifs with hready
      · have hkept := hrun s input h hready
        rcases hr : (b.run input).run s with ⟨_ | _ | _, s'⟩ <;> rw [hr] at hkept <;> exact hkept
      · exact h

/-! ### The calls a message makes -/

/-- The calls that answering a message makes to the backend: at most one, and none without a second
frame. -/
def callsOf (json : SerdeJson) (b : DetectorBackend σ) (msg : ZmqMessage) (s : σ) :
    List BackendCall :=
  match msg[1]? with
  | none => []
  | some data =>
    if classifyMessage json msg then
      if b.isReady s then []
      else [.cacheModel ((b.cacheModel data (some (nameOf json msg))).run s).1.isOk]
    else if b.isReady s then [.run ((b.run data).run s).1.isOk]
    else []

theorem handleModelRequest_traced (h : classifyMessage json msg = true)
    (calls : List BackendCall) :
    (handleModelRequest json b.traced msg).run (s, calls) =
      (((handleModelRequest json b msg).run s).1, ((handleModelRequest json b msg).run s).2,
        calls ++ callsOf json b msg s) := by
  obtain ⟨frame, rest, header, rfl, hp, -⟩ := exists_header h
  rw [handleModelRequest_run hp, handleModelRequest_run hp]
  cases rest with
  | nil => exact Prod.ext rfl (Prod.ext rfl (List.append_nil _).symm)
  | cons data rest =>
    have hcalls : callsOf json b (frame :: data :: rest) s = if b.isReady s then [] else
        [.cacheModel ((b.cacheModel data (some (requestedName header))).run s).1.isOk] := by
      rw [callsOf, nameOf_cons hp]
      exact if_pos h
    have hready : b.traced.isReady (s, calls) = b.isReady s := rfl
    have hname : b.traced.isModelReady (s, calls) = b.isModelReady s := rfl
    have hrec : (b.traced.cacheModel data (some (requestedName header))).run (s, calls) = _ :=
      run_record .cacheModel _ s calls
    rw [hcalls]
    dsimp only
    rw [hready, hname, hrec]
    split_ifs
    · exact Prod.ext rfl (Prod.ext rfl (List.append_nil _).symm)
    · exact Prod.ext rfl (Prod.ext rfl (List.append_nil _).symm)
    · rcases (b.cacheModel data (some (requestedName header))).run s with ⟨_ | e | _, s'⟩ <;> rfl

theorem handleInference_traced (h : classifyMessage json msg = false) (calls : List BackendCall) :
    (handleInference b.traced msg).run (s, calls) =
      (((handleInference b msg).run s).1, ((handleInference b msg).run s).2,
        calls ++ callsOf json b msg s) := by
  rw [handleInference_run, handleInference_run]
  match msg with
  | [] | [_] => exact Prod.ext rfl (Prod.ext rfl (List.append_nil _).symm)
  | frame :: data :: rest =>
    have hcalls : callsOf json b (frame :: data :: rest) s =
        if b.isReady s then [.run ((b.run data).run s).1.isOk] else [] :=
      if_neg (Bool.eq_false_iff.mp h)
    have hready : b.traced.isReady (s, calls) = b.isReady s := rfl
    have hrec : (b.traced.run data).run (s, calls) = _ := run_record .run (b.run data) s calls
    rw [hcalls]
    dsimp only
    rw [hready, hrec]
    split_ifs
    · rcases (b.run data).run s with ⟨_ | e | _, s'⟩ <;> rfl
    · exact Prod.ext rfl (Prod.ext rfl (List.append_nil _).symm)

/-- **A traced backend answers as the backend does**, and records these calls. -/
theorem dispatch_traced (calls : List BackendCall) :
    (dispatch json b.traced msg).run (s, calls) =
      (((dispatch json b msg).run s).1, ((dispatch json b msg).run s).2,
        calls ++ callsOf json b msg s) := by
  unfold dispatch
  split_ifs with h
  · rw [run_orElse_congr (handleModelRequest_traced h calls), run_orElse_snd]
  · have h := Bool.eq_false_iff.mpr h
    rw [run_orElse_congr (handleInference_traced h calls), run_orElse_snd]

end FrigateZmqDetector.Protocol
