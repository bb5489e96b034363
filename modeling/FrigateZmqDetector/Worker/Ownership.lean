import FrigateZmqDetector.Protocol.FirstModel
import FrigateZmqDetector.Tflite.Semantics
import FrigateZmqDetector.Worker.Replies

/-!
# Who owns the model

`cache_model` takes a model out of its box, lends it to an interpreter for the rest of the process
and, when there is no interpreter, puts it back to be dropped. The type system does not see any of
this. A `ModelHeap` does: it is part of the state of the library, and every call that the library is
not meant to get leaves it `misused`. In a worker it never is, and what is lent is always what the
manager holds (`ownership`): no model is leaked, dropped twice, dropped while it is lent, or
replaced by another one, and no interpreter is used but the one that was built last.
-/

namespace FrigateZmqDetector.Tflite

open Lib Lib.Eff

/-- What there is of models and interpreters. -/
inductive ModelHeap where
  | empty
  /-- A model that only its pointer knows of. -/
  | allocated (model : Model)
  /-- A model that an interpreter borrows. -/
  | borrowed (model : Model) (interp : Interpreter)
  | misused
  deriving DecidableEq, Repr

namespace ModelHeap

/-- A second model would be the end of the first one's only reference. -/
def alloc (model : Model) : ModelHeap → ModelHeap
  | .empty => .allocated model
  | .allocated _ | .borrowed _ _ | .misused => .misused

def drop (model : Model) : ModelHeap → ModelHeap
  | .allocated model' => if model = model' then .empty else .misused
  | .empty | .borrowed _ _ | .misused => .misused

/-- An interpreter is built for the model, or not. -/
def build (model : Model) (interp : Option Interpreter) : ModelHeap → ModelHeap
  | .allocated model' =>
    if model = model' then interp.elim (.allocated model) (.borrowed model) else .misused
  | .empty | .borrowed _ _ | .misused => .misused

def use (interp : Interpreter) : ModelHeap → ModelHeap
  | .borrowed model interp' => if interp = interp' then .borrowed model interp else .misused
  | .empty | .allocated _ | .misused => .misused

/-- What a manager holds. -/
def ofManager (m : TfliteManager) : ModelHeap :=
  match m.model, m.interpreter with
  | some model, some interp => .borrowed model interp
  | none, none => .empty
  | _, _ => .misused

end ModelHeap

/-- **The library keeps a heap** of its models and interpreters. -/
structure Tracks {W : Type} (lib : EdgefirstTflite W) (heap : W → ModelHeap) : Prop where
  modelFromBytes : ∀ data w, heap (lib.modelFromBytes data w).2 =
    match (lib.modelFromBytes data w).1 with
    | .ok model => (heap w).alloc model
    | .error _ => heap w
  dropModel : ∀ model w, heap (lib.dropModel model w) = (heap w).drop model
  interpreterBuilder : ∀ w, heap (lib.interpreterBuilder w).2 = heap w
  delegateLoad : ∀ path w, heap (lib.delegateLoad path w).2 = heap w
  build : ∀ builder model w, heap (lib.build builder model w).2 =
    (heap w).build model (lib.build builder model w).1.toOption
  inputsMut : ∀ interp w, heap (lib.inputsMut interp w).2 = (heap w).use interp
  copyFromSlice : ∀ tensor bytes w, heap (lib.copyFromSlice tensor bytes w).2 = heap w
  invoke : ∀ interp w, heap (lib.invoke interp w).2 = (heap w).use interp

variable {W : Type} {lib : EdgefirstTflite W} {heap : W → ModelHeap} {model : Model}
  {interp : Interpreter} {s : TfliteState W}

/-- A library with such a heap beside its own state. It answers as it does without one. -/
def EdgefirstTflite.withHeap (lib : EdgefirstTflite W) : EdgefirstTflite (W × ModelHeap) where
  modelFromBytes data w :=
    let (r, w') := lib.modelFromBytes data w.1
    (r, w', match r with
      | .ok model => w.2.alloc model
      | .error _ => w.2)
  dropModel model w := (lib.dropModel model w.1, w.2.drop model)
  interpreterBuilder w := ((lib.interpreterBuilder w.1).1, (lib.interpreterBuilder w.1).2, w.2)
  delegateLoad path w := ((lib.delegateLoad path w.1).1, (lib.delegateLoad path w.1).2, w.2)
  build builder model w :=
    let (r, w') := lib.build builder model w.1
    (r, w', w.2.build model r.toOption)
  inputsMut interp w := ((lib.inputsMut interp w.1).1, (lib.inputsMut interp w.1).2, w.2.use interp)
  copyFromSlice tensor bytes w :=
    ((lib.copyFromSlice tensor bytes w.1).1, (lib.copyFromSlice tensor bytes w.1).2, w.2)
  invoke interp w := ((lib.invoke interp w.1).1, (lib.invoke interp w.1).2, w.2.use interp)
  outputs interp w := lib.outputs interp w.1
  asSliceF32 tensor w := lib.asSliceF32 tensor w.1

theorem tracks_withHeap (lib : EdgefirstTflite W) : Tracks lib.withHeap Prod.snd where
  modelFromBytes _ _ := rfl
  dropModel _ _ := rfl
  interpreterBuilder _ := rfl
  delegateLoad _ _ := rfl
  build _ _ _ := rfl
  inputsMut _ _ := rfl
  copyFromSlice _ _ _ := rfl
  invoke _ _ := rfl

theorem spec_native {α : Type} {call : NativeCall W α} {text : String → String} {P E : W → Prop}
    {Q : α → W → Prop} (hok : ∀ w a w', P w → call w = (.ok a, w') → Q a w')
    (herr : ∀ w e w', P w → call w = (.error e, w') → E w') :
    Spec P (native call text) Q E := by
  intro w hw
  simp only [native]
  rcases hc : call w with ⟨e | a, w'⟩
  · exact herr w e w' hw hc
  · exact hok w a w' hw hc

/-- A call that leaves this heap alone. -/
theorem spec_native_keep {α : Type} {call : NativeCall W α} {text : String → String} {l : ModelHeap}
    (h : ∀ w, heap w = l → heap (call w).2 = l) :
    Spec (fun w => heap w = l) (native call text) (fun _ w => heap w = l)
      fun w => heap w = l :=
  spec_native (fun w _ _ hw hc => by have := h w hw; rwa [hc] at this)
    fun w _ _ hw hc => by have := h w hw; rwa [hc] at this

section Calls

variable (ht : Tracks lib heap)
include ht

/-- **An interpreter borrows the model, or nobody does.** -/
theorem buildInterpreter_spec (delegatePath : String) (useDelegate : Bool) (threads : Int32) :
    Spec (fun w => heap w = .allocated model)
      (buildInterpreter lib model delegatePath useDelegate threads)
      (fun interp w => heap w = .borrowed model interp) fun w => heap w = .allocated model := by
  have hbuild : ∀ builder : Builder, Spec (fun w => heap w = .allocated model)
      (native (lib.build builder model) fun e => s!"Interpreter build failed: {e}")
      (fun interp w => heap w = .borrowed model interp) fun w => heap w = .allocated model := by
    intro builder
    refine spec_native (fun w interp w' hw hc => ?_) fun w e w' hw hc => ?_
    · have hb := ht.build builder model w
      rw [hc, hw] at hb
      simpa [ModelHeap.build, Except.toOption] using hb
    · have hb := ht.build builder model w
      rw [hc, hw] at hb
      simpa [ModelHeap.build, Except.toOption] using hb
  unfold buildInterpreter
  refine Spec.bind (Q := fun _ w => heap w = .allocated model)
    (spec_native_keep fun w hw => (ht.interpreterBuilder w).trans hw) fun builder => ?_
  dsimp only
  split_ifs
  · refine Spec.bind (Q := fun _ w => heap w = .allocated model)
      (spec_native_keep fun w hw => (ht.delegateLoad _ w).trans hw) fun delegate => ?_
    exact (spec_pure _).bind fun _ => hbuild _
  · exact (spec_pure _).bind fun _ => hbuild _

/-- **A model is lent or dropped.** -/
theorem buildModel_spec (m : TfliteManager) (data : Bytes) :
    Spec (fun w => heap w = .empty) (buildModel lib m data)
      (fun r w => heap w = .borrowed r.1 r.2) fun w => heap w = .empty := by
  unfold buildModel
  refine Spec.bind (Q := fun model w => heap w = .allocated model)
    (spec_native (fun w model w' hw hc => ?_) fun w e w' hw hc => ?_) fun model => ?_
  · have hm := ht.modelFromBytes data w
    rwa [hc, hw] at hm
  · have hm := ht.modelFromBytes data w
    rwa [hc, hw] at hm
  refine Spec.bind (Q := fun interp w => heap w = .borrowed model interp)
    ((buildInterpreter_spec ht _ _ _).onErr (ensures_buildInterpreter _ _ _ _) fun w hw => ?_)
    fun interp _ hw => hw
  rw [ht.dropModel, hw]
  exact if_pos rfl

/-- Inference uses the interpreter that borrows the model. -/
theorem runInference_spec (input : Bytes) :
    Spec (fun w => heap w = .borrowed model interp) (runInference lib interp input)
      (fun _ w => heap w = .borrowed model interp)
      fun w => heap w = .borrowed model interp := by
  have huse : ∀ w, heap w = .borrowed model interp →
      (heap w).use interp = .borrowed model interp := fun w hw => by
    rw [hw]
    exact if_pos rfl
  unfold runInference
  refine Spec.bind (spec_native_keep fun w hw => (ht.inputsMut _ w).trans (huse w hw))
    fun inputs => ?_
  refine Spec.bind ((keeps_index _ _).spec (g := heap) (· = .borrowed model interp))
    fun input => ?_
  split_ifs
  · exact spec_throw _
  refine Spec.bind (spec_native_keep fun w hw => (ht.copyFromSlice _ _ w).trans hw) fun _ => ?_
  refine Spec.bind (spec_native_keep fun w hw => (ht.invoke _ w).trans (huse w hw)) fun _ => ?_
  exact (keeps_postProcessSsd heap).spec (· = .borrowed model interp)

theorem warmupInference_spec :
    Spec (fun w => heap w = .borrowed model interp) (warmupInference lib interp)
      (fun _ w => heap w = .borrowed model interp)
      fun w => heap w = .borrowed model interp := by
  have huse : ∀ w, heap w = .borrowed model interp →
      (heap w).use interp = .borrowed model interp := fun w hw => by
    rw [hw]
    exact if_pos rfl
  have hindex : ∀ inputs : List TensorMut, Spec (fun w => heap w = .borrowed model interp)
      (index inputs 0 : Fallible W TensorMut) (fun _ w => heap w = .borrowed model interp)
      fun w => heap w = .borrowed model interp := fun inputs =>
    (keeps_index _ _).spec (g := heap) (· = .borrowed model interp)
  unfold warmupInference
  refine Spec.bind (spec_native_keep fun w hw => (ht.inputsMut _ w).trans (huse w hw))
    fun inputs => ?_
  refine Spec.bind (hindex inputs) fun input => ?_
  refine Spec.bind (spec_native_keep fun w hw => (ht.inputsMut _ w).trans (huse w hw))
    fun inputs => ?_
  refine Spec.bind (hindex inputs) fun input => ?_
  refine Spec.bind (spec_native_keep fun w hw => (ht.copyFromSlice _ _ w).trans hw) fun _ => ?_
  exact spec_native_keep fun w hw => (ht.invoke _ w).trans (huse w hw)

end Calls

/-! ### The manager -/

/-- **The heap is what the manager holds.** -/
structure Owned (heap : W → ModelHeap) (s : TfliteState W) : Prop where
  heap : heap s.native = .ofManager s.manager
  used : ModelHeap.ofManager s.manager ≠ .misused

namespace Owned

theorem fresh {m : TfliteManager} (hm : m.model = none) (hi : m.interpreter = none) {w : W}
    (hw : heap w = .empty) : Owned heap ⟨m, w⟩ := by
  constructor <;> simp only [ModelHeap.ofManager, hm, hi]
  · exact hw
  · decide

variable (h : Owned heap s)
include h

/-- What a manager with an interpreter has lent. -/
theorem borrowed (hi : s.manager.interpreter = some interp) :
    ∃ model, s.manager.model = some model ∧ heap s.native = .borrowed model interp := by
  have hl := h.heap
  have hu := h.used
  unfold ModelHeap.ofManager at hl hu
  rw [hi] at hl hu
  cases hm : s.manager.model with
  | none =>
    rw [hm] at hu
    exact absurd rfl hu
  | some model =>
    rw [hm] at hl
    exact ⟨model, rfl, hl⟩

theorem empty (hi : s.manager.interpreter = none) : heap s.native = .empty := by
  have hl := h.heap
  have hu := h.used
  unfold ModelHeap.ofManager at hl hu
  rw [hi] at hl hu
  cases hm : s.manager.model with
  | none =>
    rw [hm] at hl
    exact hl
  | some model =>
    rw [hm] at hu
    exact absurd rfl hu

theorem native {w : W} (hw : heap w = heap s.native) : Owned heap ⟨s.manager, w⟩ :=
  ⟨hw.trans h.heap, h.used⟩

variable (ht : Tracks lib heap)
include ht

theorem cacheModel (hready : s.manager.isReady = false) (data : Bytes) (name : Option String) :
    Owned heap ((TfliteManager.cacheModel lib data name).run s).2 := by
  have hi : s.manager.interpreter = none := Option.isNone_iff_eq_none.mp (by
    simpa [TfliteManager.isReady] using hready)
  have hspec := buildModel_spec ht s.manager data s.native (h.empty hi)
  rcases cacheModel_cases lib s data name with ⟨model, interp, w, hb, hc⟩ | ⟨e, w, hb, hc⟩ <;>
    rw [hc] <;> rw [hb] at hspec
  · exact ⟨hspec, by simp [ModelHeap.ofManager, TfliteManager.loaded]⟩
  · exact h.native (Eq.trans hspec (h.empty hi).symm)

theorem run (input : Bytes) : Owned heap ((TfliteManager.run lib input).run s).2 := by
  cases hi : s.manager.interpreter with
  | none =>
    unfold TfliteManager.run
    rw [run_bind_of_ok run_get, hi]
    exact h
  | some interp =>
    obtain ⟨model, -, hl⟩ := h.borrowed hi
    rw [run_of_interpreter hi]
    exact h.native (Eq.trans ((runInference_spec ht input).invariant hl) hl.symm)

theorem warmup : Owned heap ((TfliteManager.warmup lib).run s).2 := by
  cases hi : s.manager.interpreter with
  | none =>
    unfold TfliteManager.warmup
    rw [run_bind_of_ok run_get, hi]
    exact h
  | some interp =>
    obtain ⟨model, -, hl⟩ := h.borrowed hi
    rw [warmup_of_interpreter hi]
    exact h.native (Eq.trans ((warmupInference_spec ht).invariant hl) hl.symm)

end Owned

end FrigateZmqDetector.Tflite

namespace FrigateZmqDetector.Worker

open Lib Lib.Eff Protocol Tflite

variable {W : Type} {cli : Cli} {json : SerdeJson} {lib : EdgefirstTflite W} {heap : W → ModelHeap}
  {events : List Event}

theorem selectBackend_unloaded (cli : Cli) :
    (selectBackend cli).model = none ∧ (selectBackend cli).interpreter = none := by
  unfold selectBackend
  cases cli.backend with
  | edgeTpu => exact ⟨rfl, rfl⟩
  | teflon =>
    dsimp only
    split_ifs <;> exact ⟨rfl, rfl⟩

/-- **No model is leaked, dropped twice or used after it was dropped.** From its start on, through
every message, the models and interpreters of a worker are those that its manager holds: none, or
one model and the one interpreter that borrows it. -/
theorem ownership (ht : Tracks lib heap) {native : W} {t : TfliteState W}
    {w : State (TfliteState W)} (hempty : heap native = .empty)
    (hboot : (startup (tfliteBackend lib) cli).run ⟨selectBackend cli, native⟩ = (.ok (), t))
    (h : (loop cli json (tfliteBackend lib)).exec (.initial cli t) events = some w) :
    heap w.backend.native = .ofManager w.backend.manager ∧
      ModelHeap.ofManager w.backend.manager ≠ .misused := by
  obtain ⟨hm, hi⟩ := selectBackend_unloaded cli
  have hcache : ∀ s data name, Owned heap s → (tfliteBackend lib).isReady s = false →
      Owned heap (((tfliteBackend lib).cacheModel data name).run s).2 :=
    fun s data name hs hready => hs.cacheModel ht hready data name
  have hready : (selectBackend cli).isReady = false := by
    rw [TfliteManager.isReady, hi]
    rfl
  have hfresh : Owned heap ⟨selectBackend cli, native⟩ := .fresh hm hi hempty
  have hstart : Owned heap t := by
    obtain ⟨s₁, hkept, ⟨-, rfl⟩ | ⟨file, data, -, -, hload⟩⟩ :=
      startup_cases (I := Owned heap) (fun s hs => hs.warmup ht) hboot
    · exact hkept hfresh
    · have hs₁ : _ = s₁ := congrArg Prod.snd hload
      exact hkept (hs₁ ▸ hcache _ data file.fileName hfresh hready)
  have howned : Owned heap w.backend := by
    refine Machine.exec_invariant (I := fun w => Owned heap w.backend)
      (fun w e w' hw hs => ?_) hstart h
    rcases backend_of_step hs with ⟨-, hb⟩ | ⟨msg, -, -, hb⟩
    · exact hb ▸ hw
    · rw [hb]
      exact dispatch_invariant hcache (fun s input hs _ => hs.run ht input) hw
  exact ⟨howned.heap, howned.used⟩

/-- Two transfers and an inference: the first model is lent, and the second one never made. -/
theorem ownership_transfers :
    ∃ w, (loop cpuCli transferJson (tfliteBackend smallTflite.withHeap)).exec
        (.initial cpuCli ⟨selectBackend cpuCli, (), .empty⟩)
        (exchange [transferHeader "ssd", [1]] ++ exchange [transferHeader "yolo", [2]] ++
          exchange [[], [0, 0]]) = some w ∧
      w.backend.native.2 = .borrowed ⟨1⟩ ⟨4⟩ ∧
      w.backend.native.2 = .ofManager w.backend.manager := by
  have hrun : ((loop cpuCli transferJson (tfliteBackend smallTflite.withHeap)).exec
      (.initial cpuCli ⟨selectBackend cpuCli, (), .empty⟩)
      (exchange [transferHeader "ssd", [1]] ++ exchange [transferHeader "yolo", [2]] ++
        exchange [[], [0, 0]])).any
          (fun w => w.backend.native.2 = .borrowed ⟨1⟩ ⟨4⟩) = true := by decide
  obtain ⟨w, hw, hlent⟩ := (Option.any_eq_true ..).mp hrun
  exact ⟨w, hw, of_decide_eq_true hlent, (ownership (tracks_withHeap _) rfl rfl hw).1⟩

end FrigateZmqDetector.Worker
