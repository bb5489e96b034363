import FrigateZmqDetector.Backend
import FrigateZmqDetector.Lib.Binary32

/-!
# The native TFLite library

`EdgefirstTflite W` stands for the `edgefirst-tflite` crate and the library it loads, with a state
`W` of its own: models, interpreters and tensors are handles into it. Each call answers or reports
an error, whose debug text is all that the sidecar uses of it.
-/

namespace FrigateZmqDetector.Tflite

open Lib Lib.Eff

/-- A call into the library: it answers or reports an error, and may change the library's state. -/
abbrev NativeCall (W α : Type) := W → Except String α × W

structure Model where
  addr : ℕ
  deriving DecidableEq, Repr

structure Delegate where
  addr : ℕ
  deriving DecidableEq, Repr

structure Interpreter where
  addr : ℕ
  deriving DecidableEq, Repr

/-- The options of an interpreter that is still to be built. -/
structure Builder where
  addr : ℕ
  threads : Option Int32
  delegates : List Delegate
  deriving DecidableEq, Repr

def Builder.numThreads (b : Builder) (n : Int32) : Builder := { b with threads := some n }

def Builder.delegate (b : Builder) (d : Delegate) : Builder :=
  { b with delegates := b.delegates ++ [d] }

structure TensorMut where
  addr : ℕ
  byteSize : ℕ
  deriving DecidableEq, Repr

structure Tensor where
  addr : ℕ
  deriving DecidableEq, Repr

/-- The calls of the library that the sidecar makes. -/
structure EdgefirstTflite (W : Type) where
  /-- `Model::from_bytes`. -/
  modelFromBytes : Bytes → NativeCall W Model
  dropModel : Model → W → W
  /-- `Interpreter::builder`. -/
  interpreterBuilder : NativeCall W Builder
  /-- `Delegate::load`. -/
  delegateLoad : String → NativeCall W Delegate
  /-- `InterpreterBuilder::build`. -/
  build : Builder → Model → NativeCall W Interpreter
  /-- `Interpreter::inputs_mut`. -/
  inputsMut : Interpreter → NativeCall W (List TensorMut)
  /-- `TensorMut::copy_from_slice::<u8>`. -/
  copyFromSlice : TensorMut → Bytes → NativeCall W Unit
  /-- `Interpreter::invoke`. -/
  invoke : Interpreter → NativeCall W Unit
  /-- `Interpreter::outputs`, which reads only. -/
  outputs : Interpreter → W → Except String (List Tensor)
  /-- `Tensor::as_slice::<f32>`, which reads only. -/
  asSliceF32 : Tensor → W → Except String (List Binary32)

variable {W α : Type}

/-- A call into the library, with the text that the sidecar puts around an error of it. -/
def native (call : NativeCall W α) (text : String → String) : Fallible W α where
  run w :=
    match call w with
    | (.ok a, w') => (.ok a, w')
    | (.error e, w') => (.err (.tflite (text e)), w')

/-- A call that reads the library's state only. -/
def nativeRead (call : W → Except String α) (text : String → String) : Fallible W α :=
  native (fun w => (call w, w)) text

section Run

variable {call : NativeCall W α} {w w' : W}

theorem run_native_of_ok {a : α} (h : call w = (.ok a, w')) (text : String → String) :
    (native call text).run w = (.ok a, w') := by
  simp only [native, h]

theorem run_native_of_error {e : String} (h : call w = (.error e, w')) (text : String → String) :
    (native call text).run w = (.err (.tflite (text e)), w') := by
  simp only [native, h]

end Run

section Read

variable {call : W → Except String α} {w w' : W} {a : α}

theorem run_nativeRead (h : call w = .ok a) (text : String → String) :
    (nativeRead call text).run w = (.ok a, w) := by
  simp only [nativeRead, native, h]

theorem run_nativeRead_eq_ok {text : String → String}
    (h : (nativeRead call text).run w = (.ok a, w')) : call w = .ok a ∧ w' = w := by
  simp only [nativeRead, native] at h
  cases hc : call w with
  | error e =>
    rw [hc] at h
    cases h
  | ok b =>
    rw [hc] at h
    cases h
    exact ⟨rfl, rfl⟩

theorem keeps_nativeRead {γ : Type} {g : W → γ} (call : W → Except String α)
    (text : String → String) : Keeps g (nativeRead call text) := by
  intro w
  simp only [nativeRead, native]
  cases call w <;> rfl

end Read

theorem ensures_native (call : NativeCall W α) (text : String → String) :
    Ensures (native call text) fun _ => True := by
  intro w
  simp only [native]
  rcases call w with ⟨_ | _, w'⟩ <;> exact trivial

end FrigateZmqDetector.Tflite
