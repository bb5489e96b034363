import FrigateZmqDetector.Protocol.Handlers
import FrigateZmqDetector.Tflite.Manager

/-!
# The first valid model wins

What any sequence of messages does to the record of a manager. `firstModel` says it without the
record: it walks over the messages and stops at the first transfer that passes validation and
interpreter construction. `first_model_wins` shows that the record is exactly that.

A message after one whose handling panicked is never received; the statements hold for such
sequences as well.
-/

namespace FrigateZmqDetector.Protocol

open Lib Lib.Eff Tflite

variable {W : Type} {json : SerdeJson} {lib : EdgefirstTflite W} {msg : ZmqMessage}
  {msgs : List ZmqMessage} {s : TfliteState W}

/-- The state after a message has been answered. -/
def handle (json : SerdeJson) (lib : EdgefirstTflite W) (s : TfliteState W) (msg : ZmqMessage) :
    TfliteState W := ((dispatch json (tfliteBackend lib) msg).run s).2

/-- The bytes and the name of the model that a message transfers. -/
def transferOf (json : SerdeJson) (msg : ZmqMessage) : Option (Bytes × String) :=
  if classifyMessage json msg then
    msg[1]?.bind fun data => (headerOf json msg).map fun header => (data, requestedName header)
  else none

structure LoadedModel where
  bytes : Bytes
  name : String
  model : Model
  interpreter : Interpreter
  deriving DecidableEq, Repr

/-- The model of a transfer that passes validation and interpreter construction in `s`. -/
def passes (json : SerdeJson) (lib : EdgefirstTflite W) (s : TfliteState W) (msg : ZmqMessage) :
    Option LoadedModel :=
  (transferOf json msg).bind fun transfer =>
    match (buildModel lib s.manager transfer.1).run s.native with
    | (.ok (model, interpreter), _) => some ⟨transfer.1, transfer.2, model, interpreter⟩
    | _ => none

/-- The model of the first transfer that passes, when the messages are handled from `s` on. -/
def firstModel (json : SerdeJson) (lib : EdgefirstTflite W) :
    TfliteState W → List ZmqMessage → Option LoadedModel
  | _, [] => none
  | s, msg :: msgs => (passes json lib s msg).or (firstModel json lib (handle json lib s msg) msgs)

/-- The record of a manager after a model has been received, if one has. -/
def withModel (m : TfliteManager) : Option LoadedModel → TfliteManager
  | some l => m.loaded l.bytes (some l.name) l.model l.interpreter
  | none => m

/-! ### One message -/

theorem transferOf_of_classify (h : classifyMessage json msg = true) :
    transferOf json msg = msg[1]?.map fun data => (data, nameOf json msg) := by
  obtain ⟨frame, rest, header, rfl, hp, -⟩ := exists_header h
  rw [transferOf, if_pos h, headerOf_cons hp, nameOf_cons hp]
  cases rest <;> rfl

/-- **What a message does to the record.** Nothing if a model is ready; otherwise it loads the
model of a transfer that passes. -/
theorem handle_manager :
    (handle json lib s msg).manager =
      if s.manager.isReady then s.manager else withModel s.manager (passes json lib s msg) := by
  unfold handle dispatch passes
  by_cases hclass : classifyMessage json msg = true
  · rw [if_pos hclass, run_orElse_snd, transferOf_of_classify hclass]
    have hcases := handleModelRequest_cases (tfliteBackend lib) s hclass
    generalize (handleModelRequest json (tfliteBackend lib) msg).run s = r at hcases ⊢
    cases hcases with
    | query hlen =>
      rw [List.getElem?_eq_none (by omega)]
      exact (ite_self _).symm
    | same _ hready => exact (if_pos hready).symm
    | different _ hready => exact (if_pos hready).symm
    | cached hdata hready hc =>
      obtain ⟨model, interpreter, w, hbuild, rfl⟩ := cacheModel_eq_ok hc
      rw [hdata, Option.map_some, Option.bind_some, hbuild]
      exact (if_neg (Bool.eq_false_iff.mp hready)).symm
    | refused hdata hready hc =>
      obtain ⟨w, hbuild, rfl⟩ := cacheModel_eq_err hc
      rw [hdata, Option.map_some, Option.bind_some, hbuild]
      exact (if_neg (Bool.eq_false_iff.mp hready)).symm
    | panicked _ _ hc => exact absurd hc cacheModel_ne_panic
  · rw [if_neg hclass, run_orElse_snd, transferOf, if_neg hclass]
    refine Eq.trans ?_ (ite_self _).symm
    exact handleInference_keeps (fun input s => keeps_run input s) msg s

/-! ### A sequence of messages -/

theorem ready_manager_kept (h : s.manager.isReady = true) (msgs : List ZmqMessage) :
    (msgs.foldl (handle json lib) s).manager = s.manager := by
  induction msgs generalizing s with
  | nil => rfl
  | cons msg msgs ih =>
    have hm : (handle json lib s msg).manager = s.manager := by
      rw [handle_manager, if_pos h]
    rw [List.foldl_cons, ih (hm.symm ▸ h), hm]

theorem foldl_handle_manager (h : s.manager.isReady = false) (msgs : List ZmqMessage) :
    (msgs.foldl (handle json lib) s).manager = withModel s.manager (firstModel json lib s msgs) := by
  induction msgs generalizing s with
  | nil => rfl
  | cons msg msgs ih =>
    have hm : (handle json lib s msg).manager = withModel s.manager (passes json lib s msg) := by
      rw [handle_manager, if_neg (Bool.eq_false_iff.mp h)]
    rw [List.foldl_cons, firstModel]
    cases hp : passes json lib s msg with
    | some l =>
      rw [hp] at hm
      rw [ready_manager_kept (hm.symm ▸ rfl), hm]
      rfl
    | none =>
      rw [hp] at hm
      rw [ih (hm.symm ▸ h), hm]
      rfl

/-- **The first valid model wins and is never disturbed.** After any messages handled from a fresh
manager the four fields are those of the first transfer that passed both checks, or all unset if
none did; and a model that is loaded, in whatever way, is kept by all that follows. -/
theorem first_model_wins (json : SerdeJson) (lib : EdgefirstTflite W) (threads : Int32)
    (path : String) (enabled : Bool) (w : W) (msgs : List ZmqMessage) :
    let s₀ : TfliteState W := ⟨(TfliteManager.new threads).setDelegate path enabled, w⟩
    let m := (msgs.foldl (handle json lib) s₀).manager
    let first := firstModel json lib s₀ msgs
    (m.isReady = first.isSome ∧ m.modelBytes = first.map LoadedModel.bytes ∧
        m.modelName = first.map LoadedModel.name ∧ m.model = first.map LoadedModel.model ∧
        m.interpreter = first.map LoadedModel.interpreter) ∧
      ∀ s : TfliteState W, s.manager.isReady = true →
        (msgs.foldl (handle json lib) s).manager = s.manager := by
  intro s₀ m first
  refine ⟨?_, fun s h => ready_manager_kept h msgs⟩
  have hm : m = withModel s₀.manager first := foldl_handle_manager rfl msgs
  rw [hm]
  cases first with
  | none => exact ⟨rfl, rfl, rfl, rfl, rfl⟩
  | some l => exact ⟨rfl, rfl, rfl, rfl, rfl⟩

def transferHeader (name : String) : Bytes :=
  ascii "\x7b\"model_data\":true,\"model_name\":\"" ++ ascii name ++ ascii "\"\x7d"

/-- A parser that knows the headers of three transfers. -/
def transferJson : SerdeJson := .ofTable (["ssd", "yolo", "ssd.tflite"].map fun name =>
  (transferHeader name, .ofMembers [("model_data", .bool true), ("model_name", .string name)]))

/-- Two transfers leave the first model, and a third changes nothing. -/
theorem first_model_wins_twice :
    let msgs := [[transferHeader "ssd", [1]], [transferHeader "yolo", [2]]]
    let s := msgs.foldl (handle transferJson smallTflite) smallState
    s.manager.modelName = some "ssd" ∧
      (([[transferHeader "yolo", [3]]] : List ZmqMessage).foldl
        (handle transferJson smallTflite) s).manager = s.manager :=
  ⟨(first_model_wins transferJson smallTflite 1 "" false () _).1.2.2.1.trans (by decide),
    (first_model_wins transferJson smallTflite 1 "" false () _).2 _ (by decide)⟩

end FrigateZmqDetector.Protocol
