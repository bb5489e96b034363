import FrigateZmqDetector.Tflite.Table

/-!
# What the native library computes

`Infers` describes a library whose inference is deterministic: what a call does is a function of
the program of the interpreter and of the contents of its input tensors, and the only thing that
the calls for an inference change is the first input tensor. The sidecar never writes the other
ones, so what is in them when an interpreter is built decides all its inferences; `Behaves` adds
that this is a function of the program. `Loads` adds that loading a model is deterministic too.
Handles are looked up in a `View` of the library's state; error texts are not described at all.

Under such a library an inference is the pure function `Behaviour.infer` of the program and the
input (`runInference_refines`): whatever was in the first tensor before does not matter.
-/

namespace FrigateZmqDetector.Tflite

open Lib Lib.Eff

/-- What an interpreter is built from. -/
structure Program where
  model : Bytes
  threads : Option Int32
  delegates : List String
  deriving DecidableEq, Repr

/-- What the library does, as functions of a program and the contents of its input tensors. -/
structure Behaviour where
  validates : Bytes → Bool
  makesBuilder : Bool
  loadsDelegate : String → Bool
  builds : Program → Bool
  /-- The sizes of the input tensors, if they can be listed. -/
  inputSizes : Program → Option (List ℕ)
  /-- What is in the input tensors of a new interpreter, after the first one. -/
  others : Program → List Bytes
  /-- The bytes can be copied into the first input tensor. -/
  copies : Program → Bytes → Bool
  invokes : Program → List Bytes → Bool
  /-- What can be read of the output tensors after `invoke`. -/
  outputs : Program → List Bytes → Option (List (Option (List Binary32)))

/-- What a state of the library holds behind its handles. -/
structure View (W : Type) where
  model : W → Model → Option Bytes
  delegate : W → Delegate → Option String
  /-- The program of an interpreter and the contents of its input tensors. -/
  interpreter : W → Interpreter → Option (Program × List Bytes)

variable {W : Type}

/-- What can be read of the output tensors. -/
def readOutputs (lib : EdgefirstTflite W) (interp : Interpreter) (w : W) :
    Option (List (Option (List Binary32))) :=
  (lib.outputs interp w).toOption.map fun tensors =>
    tensors.map fun t => (lib.asSliceF32 t w).toOption

/-- **The library runs programs like this.** An interpreter runs the model and the delegates it was
built with, and an inference is a function of the program and of its input tensors. -/
structure Infers (lib : EdgefirstTflite W) (beh : Behaviour) (view : View W) : Prop where
  modelFromBytes : ∀ data w model w', lib.modelFromBytes data w = (.ok model, w') →
    view.model w' model = some data
  interpreterBuilder : ∀ w, view.model (lib.interpreterBuilder w).2 = view.model w ∧
    ∀ b w', lib.interpreterBuilder w = (.ok b, w') → b.delegates = []
  delegateLoad : ∀ path w, view.model (lib.delegateLoad path w).2 = view.model w ∧
    ∀ d w', lib.delegateLoad path w = (.ok d, w') → view.delegate w' d = some path
  build : ∀ b model data paths w interp w', view.model w model = some data →
    b.delegates.map (view.delegate w) = paths.map some →
    lib.build b model w = (.ok interp, w') →
    ∃ ins, view.interpreter w' interp = some (⟨data, b.threads, paths⟩, ins)
  /-- Listing the inputs lists all of them and changes nothing. -/
  inputsMut : ∀ interp p ins w, view.interpreter w interp = some (p, ins) →
    (lib.inputsMut interp w).1.toOption.map (List.map TensorMut.byteSize) = beh.inputSizes p ∧
    (∀ sizes, beh.inputSizes p = some sizes → sizes.length = ins.length) ∧
    view.interpreter (lib.inputsMut interp w).2 interp = some (p, ins)
  /-- A copy replaces the whole of the first input tensor, or fails and leaves it alone. -/
  copyFromSlice : ∀ interp p ins w t ts w' bytes, view.interpreter w interp = some (p, ins) →
    lib.inputsMut interp w = (.ok (t :: ts), w') →
    (lib.copyFromSlice t bytes w').1.isOk = beh.copies p bytes ∧
    view.interpreter (lib.copyFromSlice t bytes w').2 interp =
      some (p, if beh.copies p bytes then ins.set 0 bytes else ins)
  /-- An invocation is a function of the input tensors. It may use the first one, which the sidecar
  writes, and leaves the others as they are. -/
  invoke : ∀ interp p ins w, view.interpreter w interp = some (p, ins) →
    (lib.invoke interp w).1.isOk = beh.invokes p ins ∧
    (∃ ins', view.interpreter (lib.invoke interp w).2 interp = some (p, ins') ∧
      ins'.length = ins.length ∧ ins'.tail = ins.tail) ∧
    (beh.invokes p ins = true →
      readOutputs lib interp (lib.invoke interp w).2 = beh.outputs p ins)

/-- **Nor does an interpreter remember what was there before it.** This is assumed: the library does
not say what is in an input tensor that has never been written. It matters for the tensors after the
first one, and there are none for a model with a single input. -/
structure Behaves (lib : EdgefirstTflite W) (beh : Behaviour) (view : View W) : Prop extends
    Infers lib beh view where
  others : ∀ b model data paths w interp w' ins, view.model w model = some data →
    b.delegates.map (view.delegate w) = paths.map some →
    lib.build b model w = (.ok interp, w') →
    view.interpreter w' interp = some (⟨data, b.threads, paths⟩, ins) →
    ins.tail = beh.others ⟨data, b.threads, paths⟩

/-- **The library loads models like this**: whether a call on the way to an interpreter succeeds is
a function of what the interpreter is built from. -/
structure Loads (lib : EdgefirstTflite W) (beh : Behaviour) (view : View W) : Prop where
  modelFromBytes : ∀ data w, (lib.modelFromBytes data w).1.isOk = beh.validates data
  interpreterBuilder : ∀ w, (lib.interpreterBuilder w).1.isOk = beh.makesBuilder
  delegateLoad : ∀ path w, (lib.delegateLoad path w).1.isOk = beh.loadsDelegate path
  build : ∀ b model data paths w, view.model w model = some data →
    b.delegates.map (view.delegate w) = paths.map some →
    (lib.build b model w).1.isOk = beh.builds ⟨data, b.threads, paths⟩

/-! ### Post-processing -/

/-- The reply for what can be read of the output tensors. -/
def decodeOutputs : Option (List (Option (List Binary32))) → Outcome Unit Bytes
  | some (some boxes :: some classIds :: some scores :: some count :: _) =>
    .ok (Binary32.listToLeBytes (SsdOutputs.table ⟨boxes, classIds, scores, count⟩))
  | _ => .err ()

variable {lib : EdgefirstTflite W} {interp : Interpreter} {w w' : W} {o : SsdOutputs}

theorem decodeOutputs_of_reads (h : Reads lib interp w o) :
    decodeOutputs (readOutputs lib interp w) = .ok (Binary32.listToLeBytes o.table) := by
  obtain ⟨tensors, hout, ⟨b, hb, hboxes⟩, ⟨c, hc, hclass⟩, ⟨s, hs, hscores⟩, n, hn, hcount⟩ := h
  have hread : readOutputs lib interp w =
      some (tensors.map fun t => (lib.asSliceF32 t w).toOption) := by
    rw [readOutputs, hout]
    rfl
  rw [hread]
  match tensors with
  | [] | [_] | [_, _] | [_, _, _] => cases hn
  | b' :: c' :: s' :: n' :: rest =>
    cases hb
    cases hc
    cases hs
    cases hn
    simp only [List.map_cons, hboxes, hclass, hscores, hcount]
    rfl

theorem eq_ok_of_toOption {α : Type} {x : Except String α} {a : α} (h : x.toOption = some a) :
    x = .ok a := by
  cases x with
  | error e => cases h
  | ok b => exact congrArg Except.ok (Option.some.inj h)

theorem reads_of_decodeOutputs {bytes : Bytes}
    (h : decodeOutputs (readOutputs lib interp w) = .ok bytes) : ∃ o, Reads lib interp w o := by
  unfold readOutputs at h
  rcases hout : lib.outputs interp w with e | tensors
  · rw [hout] at h
    cases h
  · rw [hout] at h
    simp only [Except.toOption, Option.map_some] at h
    unfold decodeOutputs at h
    split at h
    next boxes classIds scores count rest heq =>
      obtain ⟨b, l₁, rfl, hb, h₁⟩ := List.map_eq_cons_iff.mp (Option.some.inj heq)
      obtain ⟨c, l₂, rfl, hc, h₂⟩ := List.map_eq_cons_iff.mp h₁
      obtain ⟨s, l₃, rfl, hs, h₃⟩ := List.map_eq_cons_iff.mp h₂
      obtain ⟨n, l₄, rfl, hn, -⟩ := List.map_eq_cons_iff.mp h₃
      exact ⟨⟨boxes, classIds, scores, count⟩, _, hout, ⟨b, rfl, eq_ok_of_toOption hb⟩,
        ⟨c, rfl, eq_ok_of_toOption hc⟩, ⟨s, rfl, eq_ok_of_toOption hs⟩, n, rfl,
        eq_ok_of_toOption hn⟩
    next => cases h

theorem decodeOutputs_ne_panic (outputs : Option (List (Option (List Binary32)))) :
    decodeOutputs outputs ≠ .panic := by
  unfold decodeOutputs
  split <;> exact fun h => by cases h

/-- Post-processing only reads. -/
theorem keeps_postProcessSsd {γ : Type} (g : W → γ) : Keeps g (postProcessSsd lib interp) := by
  refine (keeps_nativeRead _ _).bind fun outputs => ?_
  split
  · exact keeps_throw _
  · refine (keeps_index _ _).bind fun _ => (keeps_nativeRead _ _).bind fun boxes => ?_
    refine (keeps_index _ _).bind fun _ => (keeps_nativeRead _ _).bind fun classIds => ?_
    refine (keeps_index _ _).bind fun _ => (keeps_nativeRead _ _).bind fun scores => ?_
    refine (keeps_index _ _).bind fun _ => (keeps_nativeRead _ _).bind fun count => ?_
    intro w
    rw [run_bind_of_ok (run_detectionLoop_table ⟨boxes, classIds, scores, count⟩ w).1]
    rfl

/-- **Post-processing is a function of what can be read.** -/
theorem postProcessSsd_refines (lib : EdgefirstTflite W) (interp : Interpreter) (w : W) :
    ((postProcessSsd lib interp).run w).1.forget = decodeOutputs (readOutputs lib interp w) := by
  have hsafe := postProcessSsd_ensures lib interp w
  rcases hrun : (postProcessSsd lib interp).run w with ⟨bytes | e | _, w'⟩
  · obtain ⟨o, ho⟩ := reads_of_ok hrun
    cases hrun.symm.trans (run_postProcessSsd ho)
    exact (decodeOutputs_of_reads ho).symm
  · cases hdec : decodeOutputs (readOutputs lib interp w) with
    | ok bytes =>
      obtain ⟨o, ho⟩ := reads_of_decodeOutputs hdec
      cases hrun.symm.trans (run_postProcessSsd ho)
    | err u => rfl
    | panic => exact absurd hdec (decodeOutputs_ne_panic _)
  · rw [hrun] at hsafe
    exact hsafe.elim

/-! ### Inference -/

section Inference

variable {beh : Behaviour} {view : View W} {p : Program}

/-- **What an inference comes to.** -/
def Behaviour.infer (beh : Behaviour) (p : Program) (input : Bytes) : Outcome Unit Bytes :=
  match beh.inputSizes p with
  | none => .err ()
  | some [] => .panic
  | some (size :: _) =>
    if size = input.length ∧ beh.copies p input = true ∧
        beh.invokes p (input :: beh.others p) = true then
      decodeOutputs (beh.outputs p (input :: beh.others p))
    else .err ()

/-- The four tensors of the detections, if all of them can be read. -/
def ssdOutputs : Option (List (Option (List Binary32))) → Option SsdOutputs
  | some (some boxes :: some classIds :: some scores :: some count :: _) =>
    some ⟨boxes, classIds, scores, count⟩
  | _ => none

/-- **The detections in an input**, if the program can tell. -/
def Behaviour.detections (beh : Behaviour) (p : Program) (input : Bytes) : Option SsdOutputs :=
  match beh.inputSizes p with
  | some (size :: _) =>
    if size = input.length ∧ beh.copies p input = true ∧
        beh.invokes p (input :: beh.others p) = true then
      ssdOutputs (beh.outputs p (input :: beh.others p))
    else none
  | _ => none

theorem decodeOutputs_eq (outputs : Option (List (Option (List Binary32)))) :
    decodeOutputs outputs = match ssdOutputs outputs with
      | some o => .ok (Binary32.listToLeBytes o.table)
      | none => .err () := by
  unfold decodeOutputs ssdOutputs
  split <;> rfl

/-- An inference that does not panic gives the table of the detections, or fails if there are
none to tell. -/
theorem infer_eq (hin : beh.inputSizes p ≠ some []) (input : Bytes) :
    beh.infer p input = match beh.detections p input with
      | some o => .ok (Binary32.listToLeBytes o.table)
      | none => .err () := by
  unfold Behaviour.infer Behaviour.detections
  match hsizes : beh.inputSizes p with
  | none => rfl
  | some [] => exact absurd hsizes hin
  | some (size :: _) =>
    dsimp only
    split_ifs
    · exact decodeOutputs_eq _
    · rfl

/-- The interpreter runs the program, and all its input tensors but the first are as they were when
it was built. -/
def Runs (beh : Behaviour) (view : View W) (w : W) (interp : Interpreter) (p : Program) : Prop :=
  ∃ ins, view.interpreter w interp = some (p, ins) ∧ ins.tail = beh.others p

/-- What was in the first tensor does not matter once it has been written. -/
theorem set_zero_eq {ins : List Bytes} (hpos : 0 < ins.length) (input : Bytes) :
    ins.set 0 input = input :: ins.tail := by
  cases ins with
  | nil => cases hpos
  | cons a ins => rfl

theorem tail_set_zero (ins : List Bytes) (input : Bytes) : (ins.set 0 input).tail = ins.tail := by
  cases ins <;> rfl

section Calls

variable (hb : Infers lib beh view)
include hb

/-- Listing the inputs: they cannot be listed, or there are none, or there is a first one. -/
theorem inputs_cases {ins : List Bytes} (h : view.interpreter w interp = some (p, ins)) :
    view.interpreter (lib.inputsMut interp w).2 interp = some (p, ins) ∧
      ((beh.inputSizes p = none ∧ ∃ e w', lib.inputsMut interp w = (.error e, w')) ∨
        (beh.inputSizes p = some [] ∧ ∃ w', lib.inputsMut interp w = (.ok [], w')) ∨
        ∃ t ts sizes w', beh.inputSizes p = some (t.byteSize :: sizes) ∧ 0 < ins.length ∧
          lib.inputsMut interp w = (.ok (t :: ts), w')) := by
  obtain ⟨hsizes, hlen, hkept⟩ := hb.inputsMut interp p ins w h
  refine ⟨hkept, ?_⟩
  rcases hin : lib.inputsMut interp w with ⟨e | ⟨_ | ⟨t, ts⟩⟩, w'⟩ <;> rw [hin] at hsizes
  · exact Or.inl ⟨hsizes.symm, e, w', rfl⟩
  · exact Or.inr (Or.inl ⟨hsizes.symm, w', rfl⟩)
  · refine Or.inr (Or.inr ⟨t, ts, ts.map TensorMut.byteSize, w', hsizes.symm, ?_, rfl⟩)
    rw [← hlen _ hsizes.symm]
    exact Nat.succ_pos _

/-- Whatever is in the first tensor, the interpreter still runs its program afterwards. -/
theorem invoke_runs (h : Runs beh view w interp p) :
    Runs beh view (lib.invoke interp w).2 interp p := by
  obtain ⟨ins, hview, htail⟩ := h
  obtain ⟨-, ⟨ins', hview', -, htail'⟩, -⟩ := hb.invoke interp p ins w hview
  exact ⟨ins', hview', htail'.trans htail⟩

theorem copy_runs {t : TensorMut} {ts : List TensorMut} (h : Runs beh view w interp p)
    (hin : lib.inputsMut interp w = (.ok (t :: ts), w')) (input : Bytes) :
    Runs beh view (lib.copyFromSlice t input w').2 interp p := by
  obtain ⟨ins, hview, htail⟩ := h
  obtain ⟨-, hview'⟩ := hb.copyFromSlice interp p ins w t ts w' input hview hin
  refine ⟨_, hview', ?_⟩
  split_ifs
  · rw [tail_set_zero, htail]
  · exact htail

/-- **An inference is a function of the program and the input**, whatever was in the first tensor
before; and it leaves the interpreter ready for the next one. -/
theorem runInference_refines (h : Runs beh view w interp p) (input : Bytes) :
    ((runInference lib interp input).run w).1.forget = beh.infer p input ∧
      Runs beh view ((runInference lib interp input).run w).2 interp p := by
  obtain ⟨ins, hview, htail⟩ := h
  obtain ⟨hkept, ⟨hsizes, e, w₁, hin⟩ | ⟨hsizes, w₁, hin⟩ |
    ⟨t, ts, sizes, w₁, hsizes, hpos, hin⟩⟩ := inputs_cases hb hview
  all_goals
    rw [hin] at hkept
    unfold Behaviour.infer
    rw [hsizes]
  · rw [runInference, run_bind_of_err (run_native_of_error hin _)]
    exact ⟨rfl, ins, hkept, htail⟩
  · rw [runInference_panics hin]
    exact ⟨rfl, ins, hkept, htail⟩
  · rw [runInference, run_bind_of_ok (run_native_of_ok hin _), run_bind_of_ok (run_index_of_some rfl)]
    dsimp only
    by_cases hsize : t.byteSize = input.length
    case neg =>
      rw [if_pos hsize, if_neg fun hall => hsize hall.1]
      exact ⟨rfl, ins, hkept, htail⟩
    rw [if_neg (not_not.mpr hsize)]
    obtain ⟨hok, hview₂⟩ := hb.copyFromSlice interp p ins w t ts w₁ input hview hin
    rcases hcopy : lib.copyFromSlice t input w₁ with ⟨e | u, w₂⟩ <;> rw [hcopy] at hok hview₂
    · -- the copy failed, and the tensor is as it was
      have hcopies : beh.copies p input = false := hok.symm
      rw [hcopies] at hview₂
      rw [run_bind_of_err (run_native_of_error hcopy _), hcopies, if_neg (by simp)]
      exact ⟨rfl, ins, hview₂, htail⟩
    · have hcopies : beh.copies p input = true := hok.symm
      rw [hcopies, if_pos rfl, set_zero_eq hpos, htail] at hview₂
      obtain ⟨hinvokes, -, hout⟩ := hb.invoke interp p _ w₂ hview₂
      have hruns := invoke_runs hb ⟨_, hview₂, rfl⟩
      rw [run_bind_of_ok (run_native_of_ok hcopy _)]
      rcases hinvoke : lib.invoke interp w₂ with ⟨e | u, w₃⟩ <;>
        rw [hinvoke] at hinvokes hruns hout
      · have hfails : beh.invokes p (input :: beh.others p) = false := hinvokes.symm
        rw [run_bind_of_err (run_native_of_error hinvoke _), hfails, if_neg (by simp)]
        exact ⟨rfl, hruns⟩
      · have hsucceeds : beh.invokes p (input :: beh.others p) = true := hinvokes.symm
        have hstate : ((postProcessSsd lib interp).run w₃).2 = w₃ :=
          keeps_postProcessSsd (fun w => w) w₃
        rw [run_bind_of_ok (run_native_of_ok hinvoke _), hstate, postProcessSsd_refines,
          hout hsucceeds, if_pos ⟨hsize, hcopies, hsucceeds⟩]
        exact ⟨rfl, hruns⟩

/-- A warmup leaves the interpreter ready, however it ends. -/
theorem warmupInference_runs (h : Runs beh view w interp p) :
    Runs beh view ((warmupInference lib interp).run w).2 interp p := by
  obtain ⟨ins, hview, htail⟩ := h
  obtain ⟨hkept, ⟨-, e, w₁, hin⟩ | ⟨-, w₁, hin⟩ | ⟨t, ts, -, w₁, -, -, hin⟩⟩ :=
    inputs_cases hb hview
  all_goals
    rw [hin] at hkept
    unfold warmupInference
  · rw [run_bind_of_err (run_native_of_error hin _)]
    exact ⟨ins, hkept, htail⟩
  · rw [run_bind_of_ok (run_native_of_ok hin _)]
    exact ⟨ins, hkept, htail⟩
  rw [run_bind_of_ok (run_native_of_ok hin _), run_bind_of_ok (run_index_of_some rfl)]
  dsimp only
  obtain ⟨hkept₂, ⟨-, e, w₂, hin₂⟩ | ⟨-, w₂, hin₂⟩ | ⟨t₂, ts₂, -, w₂, -, -, hin₂⟩⟩ :=
    inputs_cases hb hkept
  all_goals rw [hin₂] at hkept₂
  · rw [run_bind_of_err (run_native_of_error hin₂ _)]
    exact ⟨ins, hkept₂, htail⟩
  · rw [run_bind_of_ok (run_native_of_ok hin₂ _)]
    exact ⟨ins, hkept₂, htail⟩
  rw [run_bind_of_ok (run_native_of_ok hin₂ _), run_bind_of_ok (run_index_of_some rfl)]
  have hcopied := copy_runs hb ⟨ins, hkept, htail⟩ hin₂ (List.replicate t.byteSize 0)
  rcases hcopy : lib.copyFromSlice t₂ (List.replicate t.byteSize 0) w₂ with ⟨e | u, w₃⟩ <;>
    rw [hcopy] at hcopied
  · rw [run_bind_of_err (run_native_of_error hcopy _)]
    exact hcopied
  · rw [run_bind_of_ok (run_native_of_ok hcopy _)]
    have hinvoked := invoke_runs hb hcopied
    rcases hinvoke : lib.invoke interp w₃ with ⟨e | u, w₄⟩ <;> rw [hinvoke] at hinvoked
    · rw [run_native_of_error hinvoke _]
      exact hinvoked
    · rw [run_native_of_ok hinvoke _]
      exact hinvoked

end Calls

end Inference

/-! ### Loading -/

/-- The configuration of a manager. -/
structure Config where
  threads : Int32
  delegatePath : String
  useDelegate : Bool
  deriving DecidableEq, Repr

namespace Config

variable (c : Config)

/-- A manager with this configuration and no model. -/
def manager : TfliteManager :=
  (TfliteManager.new c.threads).setDelegate c.delegatePath c.useDelegate

/-- What a manager with this configuration makes of a model. -/
def program (data : Bytes) : Program where
  model := data
  threads := some c.threads
  delegates := if c.useDelegate = true ∧ c.delegatePath ≠ "" then [c.delegatePath] else []

variable {c} (data : Bytes)

theorem program_delegate (h : c.useDelegate = true ∧ c.delegatePath ≠ "") :
    c.program data = ⟨data, some c.threads, [c.delegatePath]⟩ := by
  rw [program, if_pos h]

theorem program_cpu (h : ¬ (c.useDelegate = true ∧ c.delegatePath ≠ "")) :
    c.program data = ⟨data, some c.threads, []⟩ := by
  rw [program, if_neg h]

end Config

/-- Every step from the bytes of a model to an interpreter succeeds. -/
def Behaviour.accepts (beh : Behaviour) (c : Config) (data : Bytes) : Bool :=
  beh.validates data && (beh.makesBuilder &&
    ((c.program data).delegates.all beh.loadsDelegate && beh.builds (c.program data)))

/-- The call ends with a value that satisfies `P`, or with an error; and which of the two is known
when `K` holds. -/
def Succeeds {α : Type} (r : Outcome SidecarError α × W) (K : Prop) (accepted : Bool)
    (P : α → W → Prop) : Prop :=
  (∃ a w', r = (.ok a, w') ∧ P a w' ∧ (K → accepted = true)) ∨
    ∃ e w', r = (.err e, w') ∧ (K → accepted = false)

section Loading

variable {beh : Behaviour} {view : View W} (hb : Behaves lib beh view)
include hb

theorem build_refines {b : Builder} {model : Model} {data : Bytes} {paths : List String}
    (hmodel : view.model w model = some data)
    (hdelegates : b.delegates.map (view.delegate w) = paths.map some) (text : String → String) :
    Succeeds ((native (lib.build b model) text).run w) (Loads lib beh view)
      (beh.builds ⟨data, b.threads, paths⟩)
      fun interp w' => Runs beh view w' interp ⟨data, b.threads, paths⟩ := by
  have hok : Loads lib beh view →
      (lib.build b model w).1.isOk = beh.builds ⟨data, b.threads, paths⟩ :=
    fun hl => hl.build b model data paths w hmodel hdelegates
  rcases hbuild : lib.build b model w with ⟨e | interp, w'⟩ <;> rw [hbuild] at hok
  · exact Or.inr ⟨_, w', run_native_of_error hbuild _, fun hl => (hok hl).symm⟩
  · obtain ⟨ins, hview⟩ := hb.build b model data paths w interp w' hmodel hdelegates hbuild
    have htail := hb.others b model data paths w interp w' ins hmodel hdelegates hbuild hview
    exact Or.inl ⟨interp, w', run_native_of_ok hbuild _, ⟨ins, hview, htail⟩,
      fun hl => (hok hl).symm⟩

omit hb in
/-- Calls before the last one do not matter when they succeed. -/
theorem Succeeds.of_accepted {α : Type} {r : Outcome SidecarError α × W} {K : Prop}
    {accepted accepted' : Bool} {P : α → W → Prop} (h : Succeeds r K accepted P)
    (heq : K → accepted' = accepted) : Succeeds r K accepted' P := by
  rcases h with ⟨a, w', hr, hP, hacc⟩ | ⟨e, w', hr, hacc⟩
  · exact Or.inl ⟨a, w', hr, hP, fun hK => (heq hK).trans (hacc hK)⟩
  · exact Or.inr ⟨e, w', hr, fun hK => (heq hK).trans (hacc hK)⟩

theorem buildInterpreter_refines (c : Config) {model : Model} {data : Bytes}
    (hmodel : view.model w model = some data) :
    Succeeds ((buildInterpreter lib model c.delegatePath c.useDelegate c.threads).run w)
      (Loads lib beh view)
      (beh.makesBuilder &&
        ((c.program data).delegates.all beh.loadsDelegate && beh.builds (c.program data)))
      fun interp w' => Runs beh view w' interp (c.program data) := by
  obtain ⟨hmodels, hnil⟩ := hb.interpreterBuilder w
  have hmakes : Loads lib beh view → (lib.interpreterBuilder w).1.isOk = beh.makesBuilder :=
    fun hl => hl.interpreterBuilder w
  unfold buildInterpreter
  rcases hbuilder : lib.interpreterBuilder w with ⟨e | b, w₁⟩ <;>
    rw [hbuilder] at hmodels hmakes
  · refine Or.inr ⟨_, w₁, run_bind_of_err (run_native_of_error hbuilder _), fun hl => ?_⟩
    rw [← hmakes hl]
    rfl
  have hnone : b.delegates = [] := hnil b w₁ hbuilder
  have hmodel₁ : view.model w₁ model = some data := by
    rw [← hmodel]
    exact congrFun hmodels model
  rw [run_bind_of_ok (run_native_of_ok hbuilder _)]
  dsimp only
  by_cases hd : c.useDelegate = true ∧ c.delegatePath ≠ ""
  · rw [if_pos hd, Config.program_delegate data hd]
    obtain ⟨hmodels₂, hpath⟩ := hb.delegateLoad c.delegatePath w₁
    have hload : Loads lib beh view →
        (lib.delegateLoad c.delegatePath w₁).1.isOk = beh.loadsDelegate c.delegatePath :=
      fun hl => hl.delegateLoad c.delegatePath w₁
    rcases hdelegate : lib.delegateLoad c.delegatePath w₁ with ⟨e | d, w₂⟩ <;>
      rw [hdelegate] at hload hmodels₂
    · refine Or.inr ⟨_, w₂, run_bind_of_err (run_native_of_error hdelegate _), fun hl => ?_⟩
      have hfails : beh.loadsDelegate c.delegatePath = false := (hload hl).symm
      simp [hfails]
    · have hmodel₂ : view.model w₂ model = some data := by
        rw [← hmodel₁]
        exact congrFun hmodels₂ model
      rw [run_bind_of_ok (run_native_of_ok hdelegate _), run_bind_of_ok (run_pure _)]
      have hpaths : ((b.numThreads c.threads).delegate d).delegates.map (view.delegate w₂) =
          [c.delegatePath].map some := by
        simp [Builder.delegate, Builder.numThreads, hnone, hpath d w₂ hdelegate]
      refine (build_refines hb hmodel₂ hpaths _).of_accepted fun hl => ?_
      have hmade : beh.makesBuilder = true := (hmakes hl).symm
      have hloads : beh.loadsDelegate c.delegatePath = true := (hload hl).symm
      simp [hmade, hloads, Builder.delegate, Builder.numThreads]
  · rw [if_neg hd, Config.program_cpu data hd, run_bind_of_ok (run_pure _)]
    have hpaths : (b.numThreads c.threads).delegates.map (view.delegate w₁) =
        ([] : List String).map some := by
      simp [Builder.numThreads, hnone]
    refine (build_refines hb hmodel₁ hpaths _).of_accepted fun hl => ?_
    have hmade : beh.makesBuilder = true := (hmakes hl).symm
    simp [hmade, Builder.numThreads]

/-- **A model that is loaded runs as the program of its bytes**; and it is loaded exactly when its
bytes are accepted, if loading is a function of them. -/
theorem buildModel_refines (c : Config) {m : TfliteManager} (hpath : m.delegatePath = c.delegatePath)
    (huse : m.useDelegate = c.useDelegate) (hthreads : m.threads = c.threads) (data : Bytes) (w : W) :
    Succeeds ((buildModel lib m data).run w) (Loads lib beh view) (beh.accepts c data)
      fun loaded w' => Runs beh view w' loaded.2 (c.program data) := by
  have hok : Loads lib beh view → (lib.modelFromBytes data w).1.isOk = beh.validates data :=
    fun hl => hl.modelFromBytes data w
  unfold buildModel Behaviour.accepts
  rw [hpath, huse, hthreads]
  rcases hvalid : lib.modelFromBytes data w with ⟨e | model, w₁⟩ <;> rw [hvalid] at hok
  · refine Or.inr ⟨_, w₁, run_bind_of_err (run_native_of_error hvalid _), fun hl => ?_⟩
    rw [← hok hl]
    rfl
  rw [run_bind_of_ok (run_native_of_ok hvalid _)]
  rcases buildInterpreter_refines hb c (hb.modelFromBytes data w model w₁ hvalid) with
    ⟨interp, w₂, hrun, hruns, hacc⟩ | ⟨e, w₂, hrun, hacc⟩
  · have hkept : ((buildInterpreter lib model c.delegatePath c.useDelegate c.threads).onErr
        (lib.dropModel model)).run w₁ = (.ok interp, w₂) := by
      simp only [onErr, hrun]
    rw [run_bind_of_ok hkept]
    refine Or.inl ⟨(model, interp), w₂, rfl, hruns, fun hl => ?_⟩
    rw [hacc hl, ← hok hl]
    rfl
  · have hdropped : ((buildInterpreter lib model c.delegatePath c.useDelegate c.threads).onErr
        (lib.dropModel model)).run w₁ = (.err e, lib.dropModel model w₂) := by
      simp only [onErr, hrun]
    rw [run_bind_of_err hdropped]
    refine Or.inr ⟨e, _, rfl, fun hl => ?_⟩
    rw [hacc hl, Bool.and_false]

end Loading

end FrigateZmqDetector.Tflite
