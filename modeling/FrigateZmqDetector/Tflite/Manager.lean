import FrigateZmqDetector.Tflite.PostProcess

/-!
# The TFLite manager

`TfliteManager` is the record of `tflite.rs`; a call to it works on the record together with the
state of the native library. The helpers that see no manager are calls on the library's state
alone, and `onNative` lifts them, so that what they leave of the record is never in question.

* `cacheModel_run`: all that `cacheModel` does, from what validation and construction answer;
* `keeps_run`, `keeps_warmup`: inference leaves the record alone;
* `run_ensures`: inference on a model with an input tensor does not panic and returns 480 bytes.
-/

namespace FrigateZmqDetector.Tflite

open Lib Lib.Eff

variable {W α : Type}

/-- Manages the model lifecycle and runs inference. -/
structure TfliteManager where
  modelBytes : Option Bytes
  modelName : Option String
  model : Option Model
  interpreter : Option Interpreter
  delegatePath : String
  useDelegate : Bool
  threads : Int32
  deriving DecidableEq, Repr

namespace TfliteManager

def new (threads : Int32) : TfliteManager where
  modelBytes := none
  modelName := none
  model := none
  interpreter := none
  delegatePath := ""
  useDelegate := false
  threads := threads

def setDelegate (m : TfliteManager) (path : String) (enabled : Bool) : TfliteManager :=
  { m with delegatePath := path, useDelegate := enabled }

def isReady (m : TfliteManager) : Bool := m.interpreter.isSome

def isModelReady (m : TfliteManager) (modelName : String) : Bool :=
  m.isReady && m.modelName == some modelName

def loaded (m : TfliteManager) (data : Bytes) (modelName : Option String) (model : Model)
    (interpreter : Interpreter) : TfliteManager :=
  { m with
    modelBytes := some data
    modelName := modelName
    interpreter := some interpreter
    model := some model }

end TfliteManager

/-- A manager and the state of the library it calls. -/
structure TfliteState (W : Type) where
  manager : TfliteManager
  native : W

/-- A call on the library's state, made by a manager. -/
def onNative (c : Fallible W α) : Fallible (TfliteState W) α :=
  zoom TfliteState.native (fun w s => { s with native := w }) c

/-! ### The calls -/

/-- An interpreter for a model with the given config. -/
def buildInterpreter (lib : EdgefirstTflite W) (model : Model) (delegatePath : String)
    (useDelegate : Bool) (threads : Int32) : Fallible W Interpreter := do
  let builder ← native lib.interpreterBuilder fun e => s!"Interpreter::builder failed: {e}"
  let builder := builder.numThreads threads
  let builder ←
    if useDelegate = true ∧ delegatePath ≠ "" then do
      let delegate ← native (lib.delegateLoad delegatePath) fun e =>
        s!"Delegate::load({delegatePath}) failed: {e}"
      pure (builder.delegate delegate)
    else pure builder
  native (lib.build builder model) fun e => s!"Interpreter build failed: {e}"

/-- The input set, the interpreter invoked, and its outputs post-processed. -/
def runInference (lib : EdgefirstTflite W) (interp : Interpreter) (inputBytes : Bytes) :
    Fallible W Bytes := do
  let inputs ← native (lib.inputsMut interp) fun e => s!"inputs_mut() failed: {e}"
  let input ← index inputs 0
  if input.byteSize ≠ inputBytes.length then
    throw (.tflite
      s!"Input size mismatch: tensor expects {input.byteSize} bytes, got {inputBytes.length}")
  else
    native (lib.copyFromSlice input inputBytes) fun e =>
      s!"copy_from_slice on input tensor failed: {e}"
    native (lib.invoke interp) fun e => s!"interpreter.invoke() failed: {e}"
    postProcessSsd lib interp

/-- The input zeroed and the interpreter invoked. -/
def warmupInference (lib : EdgefirstTflite W) (interp : Interpreter) : Fallible W Unit := do
  let inputs ← native (lib.inputsMut interp) fun e => s!"inputs_mut() failed: {e}"
  let input ← index inputs 0
  let zeros := List.replicate input.byteSize 0
  let inputs ← native (lib.inputsMut interp) fun e => s!"inputs_mut() (warmup set) failed: {e}"
  native (lib.copyFromSlice (← index inputs 0) zeros) fun e =>
    s!"copy_from_slice on warmup input failed: {e}"
  native (lib.invoke interp) fun e => s!"warmup invoke failed: {e}"

namespace TfliteManager

/-- Model bytes from a transfer or a file: validated, and an interpreter built for them. The model
is dropped when there is no interpreter for it. -/
def cacheModel (lib : EdgefirstTflite W) (data : Bytes) (modelName : Option String) :
    Fallible (TfliteState W) Unit := do
  let model ← onNative (native (lib.modelFromBytes data) fun e => s!"Model validation failed: {e}")
  let m := (← get).manager
  let interpreter ← onNative
    ((buildInterpreter lib model m.delegatePath m.useDelegate m.threads).onErr
      (lib.dropModel model))
  modify fun s => { s with manager := s.manager.loaded data modelName model interpreter }

def run (lib : EdgefirstTflite W) (inputBytes : Bytes) : Fallible (TfliteState W) Bytes := do
  let interpreter ← okOr (← get).manager.interpreter .modelNotLoaded
  onNative (runInference lib interpreter inputBytes)

def warmup (lib : EdgefirstTflite W) : Fallible (TfliteState W) Unit := do
  let interpreter ← okOr (← get).manager.interpreter .modelNotLoaded
  onNative (warmupInference lib interpreter)

end TfliteManager

def tfliteBackend (lib : EdgefirstTflite W) : DetectorBackend (TfliteState W) where
  isReady s := s.manager.isReady
  modelName s := s.manager.modelName
  isModelReady s := s.manager.isModelReady
  cacheModel := TfliteManager.cacheModel lib
  run := TfliteManager.run lib
  warmup := TfliteManager.warmup lib

/-! ### What caching a model does -/

/-- Model validation and interpreter construction, as a manager with this config makes them. -/
def buildModel (lib : EdgefirstTflite W) (m : TfliteManager) (data : Bytes) :
    Fallible W (Model × Interpreter) := do
  let model ← native (lib.modelFromBytes data) fun e => s!"Model validation failed: {e}"
  let interpreter ← (buildInterpreter lib model m.delegatePath m.useDelegate m.threads).onErr
    (lib.dropModel model)
  pure (model, interpreter)

variable {lib : EdgefirstTflite W} {s : TfliteState W}

theorem run_onNative (c : Fallible W α) :
    (onNative c).run s = ((c.run s.native).1, { s with native := (c.run s.native).2 }) := rfl

theorem run_onNative_eq {c : Fallible W α} {r : Outcome SidecarError α} {w : W}
    (h : c.run s.native = (r, w)) : (onNative c).run s = (r, ⟨s.manager, w⟩) := by
  rw [run_onNative, h]

/-- **What caching a model does.** The record changes only when validation and construction both
succeed. -/
theorem cacheModel_run (data : Bytes) (modelName : Option String) :
    (TfliteManager.cacheModel lib data modelName).run s =
      match (buildModel lib s.manager data).run s.native with
      | (.ok (model, interpreter), w) =>
        (.ok (), ⟨s.manager.loaded data modelName model interpreter, w⟩)
      | (.err e, w) => (.err e, ⟨s.manager, w⟩)
      | (.panic, w) => (.panic, ⟨s.manager, w⟩) := by
  unfold TfliteManager.cacheModel buildModel
  generalize native (lib.modelFromBytes data) _ = validate
  rcases hv : validate.run s.native with ⟨model | e | _, w⟩
  · rw [run_bind_of_ok (run_onNative_eq hv), run_bind_of_ok hv, run_bind_of_ok run_get]
    dsimp only
    generalize (buildInterpreter lib model _ _ _).onErr _ = construct
    rcases hc : construct.run w with ⟨interpreter | e | _, w'⟩
    · rw [run_bind_of_ok (run_onNative_eq hc), run_bind_of_ok hc]
      rfl
    · rw [run_bind_of_err (run_onNative_eq hc), run_bind_of_err hc]
    · rw [run_bind_of_panic (run_onNative_eq hc), run_bind_of_panic hc]
  · rw [run_bind_of_err (run_onNative_eq hv), run_bind_of_err hv]
  · rw [run_bind_of_panic (run_onNative_eq hv), run_bind_of_panic hv]

theorem ensures_buildInterpreter (model : Model) (delegatePath : String) (useDelegate : Bool)
    (threads : Int32) :
    Ensures (buildInterpreter lib model delegatePath useDelegate threads) fun _ => True := by
  refine (ensures_native _ _).bind fun builder _ => ?_
  have hbuild : ∀ b : Builder, Ensures (pure b >>= fun builder => native (lib.build builder model)
      fun e => s!"Interpreter build failed: {e}") fun _ => True := fun b =>
    (ensures_pure (P := fun _ => True) trivial).bind fun _ _ => ensures_native _ _
  dsimp only
  split
  · exact (ensures_native _ _).bind fun delegate _ => hbuild _
  · exact hbuild _

theorem ensures_buildModel (lib : EdgefirstTflite W) (m : TfliteManager) (data : Bytes) :
    Ensures (buildModel lib m data) fun _ => True :=
  (ensures_native _ _).bind fun _ _ =>
    ((ensures_buildInterpreter _ _ _ _).onErr _).bind fun _ _ => ensures_pure trivial

/-- Caching a model succeeds and loads it, or fails and leaves the record alone. -/
theorem cacheModel_cases (lib : EdgefirstTflite W) (s : TfliteState W) (data : Bytes)
    (modelName : Option String) :
    (∃ model interpreter w,
      (buildModel lib s.manager data).run s.native = (.ok (model, interpreter), w) ∧
      (TfliteManager.cacheModel lib data modelName).run s =
        (.ok (), ⟨s.manager.loaded data modelName model interpreter, w⟩)) ∨
    (∃ e w, (buildModel lib s.manager data).run s.native = (.err e, w) ∧
      (TfliteManager.cacheModel lib data modelName).run s = (.err e, ⟨s.manager, w⟩)) := by
  have hs := ensures_buildModel lib s.manager data s.native
  rw [cacheModel_run]
  rcases ha : (buildModel lib s.manager data).run s.native with ⟨⟨model, interpreter⟩ | e | _, w⟩
  · exact Or.inl ⟨model, interpreter, w, rfl, rfl⟩
  · exact Or.inr ⟨e, w, rfl, rfl⟩
  · rw [ha] at hs
    exact hs.elim

section CacheModel

variable {data : Bytes} {modelName : Option String} {s' : TfliteState W} {e : SidecarError}

theorem cacheModel_eq_ok
    (h : (TfliteManager.cacheModel lib data modelName).run s = (.ok (), s')) :
    ∃ model interpreter w,
      (buildModel lib s.manager data).run s.native = (.ok (model, interpreter), w) ∧
        s' = ⟨s.manager.loaded data modelName model interpreter, w⟩ := by
  rcases cacheModel_cases lib s data modelName with ⟨model, interpreter, w, hb, hc⟩ | ⟨e, w, -, hc⟩
  · exact ⟨model, interpreter, w, hb, congrArg Prod.snd (h.symm.trans hc)⟩
  · cases h.symm.trans hc

theorem cacheModel_eq_err
    (h : (TfliteManager.cacheModel lib data modelName).run s = (.err e, s')) :
    ∃ w, (buildModel lib s.manager data).run s.native = (.err e, w) ∧ s' = ⟨s.manager, w⟩ := by
  rcases cacheModel_cases lib s data modelName with ⟨model, interpreter, w, -, hc⟩ | ⟨e', w, hb, hc⟩
  · cases h.symm.trans hc
  · obtain ⟨he, hs⟩ := Prod.mk.inj (h.symm.trans hc)
    cases he
    exact ⟨w, hb, hs⟩

theorem cacheModel_ne_panic :
    (TfliteManager.cacheModel lib data modelName).run s ≠ (.panic, s') := by
  intro h
  rcases cacheModel_cases lib s data modelName with ⟨_, _, _, -, hc⟩ | ⟨_, _, -, hc⟩ <;>
    cases h.symm.trans hc

end CacheModel

/-! ### What inference does -/

theorem keeps_onNative (c : Fallible W α) : Keeps TfliteState.manager (onNative c) :=
  keeps_zoom fun _ _ => rfl

theorem ensures_onNative {c : Fallible W α} {P : α → Prop} (hc : c.Ensures P) :
    (onNative c).Ensures P := hc.zoom

theorem keeps_run (inputBytes : Bytes) :
    Keeps TfliteState.manager (TfliteManager.run lib inputBytes) :=
  keeps_get.bind fun _ => (keeps_okOr _ _).bind fun _ => keeps_onNative _

theorem keeps_warmup : Keeps TfliteState.manager (TfliteManager.warmup lib) :=
  keeps_get.bind fun _ => (keeps_okOr _ _).bind fun _ => keeps_onNative _

theorem run_of_interpreter {interp : Interpreter} (h : s.manager.interpreter = some interp)
    (input : Bytes) :
    (TfliteManager.run lib input).run s = (((runInference lib interp input).run s.native).1,
      { s with native := ((runInference lib interp input).run s.native).2 }) := by
  unfold TfliteManager.run
  rw [run_bind_of_ok run_get, h]
  rfl

theorem warmup_of_interpreter {interp : Interpreter} (h : s.manager.interpreter = some interp) :
    (TfliteManager.warmup lib).run s = (((warmupInference lib interp).run s.native).1,
      { s with native := ((warmupInference lib interp).run s.native).2 }) := by
  unfold TfliteManager.warmup
  rw [run_bind_of_ok run_get, h]
  rfl

/-- The library never lists the input tensors of this interpreter as empty. -/
def HasInput (lib : EdgefirstTflite W) (interp : Interpreter) : Prop :=
  ∀ w inputs w', lib.inputsMut interp w = (.ok inputs, w') → inputs ≠ []

theorem ensures_inputs {interp : Interpreter} (h : HasInput lib interp) (text : String → String) :
    Ensures (native (lib.inputsMut interp) text) fun inputs => 0 < inputs.length := by
  intro w
  rcases hw : lib.inputsMut interp w with ⟨_ | inputs, w'⟩
  · simp only [native, hw]
    trivial
  · simp only [native, hw]
    exact List.length_pos_iff.mpr (h w inputs w' hw)

/-- **The index that is not checked.** -/
theorem runInference_panics {interp : Interpreter} {w w' : W}
    (h : lib.inputsMut interp w = (.ok [], w')) (input : Bytes) :
    (runInference lib interp input).run w = (.panic, w') := by
  unfold runInference
  rw [run_bind_of_ok (run_native_of_ok h _)]
  rfl

theorem runInference_ensures {interp : Interpreter} (h : HasInput lib interp)
    (inputBytes : Bytes) :
    Ensures (runInference lib interp inputBytes) fun bytes => bytes.length = 480 := by
  refine (ensures_inputs h _).bind fun inputs hlen => (ensures_index hlen).bind fun input _ => ?_
  split
  · exact ensures_throw _
  · exact (ensures_native _ _).bind fun _ _ => (ensures_native _ _).bind fun _ _ =>
      postProcessSsd_ensures lib interp

/-- **Inference returns 480 bytes or fails**, on any model with an input tensor. -/
theorem run_ensures (h : ∀ interp, s.manager.interpreter = some interp → HasInput lib interp)
    (inputBytes : Bytes) :
    ((TfliteManager.run lib inputBytes).run s).1.Ensures fun bytes => bytes.length = 480 := by
  unfold TfliteManager.run
  rw [run_bind_of_ok run_get]
  cases hi : s.manager.interpreter with
  | none => exact trivial
  | some interp => exact ensures_onNative (runInference_ensures (h interp hi) inputBytes) s

theorem runInference_ok_length {interp : Interpreter} {inputBytes bytes : Bytes} {w w' : W}
    (h : (runInference lib interp inputBytes).run w = (.ok bytes, w')) : bytes.length = 480 := by
  obtain ⟨inputs, w₁, -, h⟩ := run_bind_eq_ok h
  obtain ⟨input, w₂, -, h⟩ := run_bind_eq_ok h
  split at h
  · cases h
  · obtain ⟨-, w₃, -, h⟩ := run_bind_eq_ok h
    obtain ⟨-, w₄, -, h⟩ := run_bind_eq_ok h
    have hs := postProcessSsd_ensures lib interp w₄
    rwa [h] at hs

theorem run_ok_length {inputBytes bytes : Bytes} {s' : TfliteState W}
    (h : (TfliteManager.run lib inputBytes).run s = (.ok bytes, s')) : bytes.length = 480 := by
  obtain ⟨s₁, s₂, -, h⟩ := run_bind_eq_ok h
  obtain ⟨interp, s₃, -, h⟩ := run_bind_eq_ok h
  rw [run_onNative] at h
  have hrun : ((runInference lib interp inputBytes).run s₃.native).1 = .ok bytes :=
    congrArg Prod.fst h
  exact runInference_ok_length (Prod.ext hrun rfl)

/-! ### A small library -/

/-- A library that takes any bytes for a model and gives every interpreter one input tensor of two
bytes; inference fails unless the interpreter has four output tensors, which none has. -/
def smallTflite : EdgefirstTflite Unit where
  modelFromBytes _ w := (.ok ⟨1⟩, w)
  dropModel _ w := w
  interpreterBuilder w := (.ok ⟨2, none, []⟩, w)
  delegateLoad _ w := (.ok ⟨3⟩, w)
  build _ _ w := (.ok ⟨4⟩, w)
  inputsMut _ w := (.ok [⟨5, 2⟩], w)
  copyFromSlice _ _ w := (.ok (), w)
  invoke _ w := (.ok (), w)
  outputs _ _ := .ok []
  asSliceF32 _ _ := .ok []

def smallState : TfliteState Unit := ⟨.new 1, ()⟩

end FrigateZmqDetector.Tflite
