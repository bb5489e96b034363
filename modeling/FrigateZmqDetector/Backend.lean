import FrigateZmqDetector.Lib.Effect
import Mathlib.Tactic.TypeStar

/-!
# The detector backend and its errors

`SidecarError` is the error type of `error.rs`; its texts are only logged and not modelled.
`DetectorBackend σ` is the trait of `backend.rs` for a backend with state `σ`: the protocol layer
knows a backend by these six methods only. A run under the process watchdog is a run of the
closure; the watchdog itself, which may end the process meanwhile, is a machine of its own.

`b.traced` is `b` with a record of the calls made to it. It answers exactly as `b` does
(`run_record`), so what is proved of the record is a fact about the calls that `b` receives.
-/

namespace FrigateZmqDetector

open Lib Lib.Eff

abbrev Bytes := List UInt8

/-- Sidecar-specific errors. -/
inductive SidecarError where
  | io (msg : String)
  | invalidConfiguration (msg : String)
  | json (msg : String)
  | modelNotLoaded
  | tflite (msg : String)
  | zmq (msg : String)
  deriving DecidableEq, Repr

/-- A call that can fail with an error of the sidecar. -/
abbrev Fallible (σ : Type) (α : Type) := Eff σ SidecarError α

/-- Capability that any inference backend must provide. -/
structure DetectorBackend (σ : Type) where
  /-- A model is loaded and ready for inference. -/
  isReady : σ → Bool
  /-- The name of the currently loaded model, if known. -/
  modelName : σ → Option String
  /-- The backend is ready and the requested name matches the currently loaded model. -/
  isModelReady : σ → String → Bool
  /-- Load and cache a model from raw `.tflite` bytes. -/
  cacheModel : Bytes → Option String → Fallible σ Unit
  /-- Run a single inference and return the raw output bytes. -/
  run : Bytes → Fallible σ Bytes
  /-- Run a warmup inference. -/
  warmup : Fallible σ Unit

/-! ### Recording the calls -/

/-- A call to a backend, with whether it succeeded. -/
inductive BackendCall where
  | cacheModel (ok : Bool)
  | run (ok : Bool)
  | warmup (ok : Bool)
  deriving DecidableEq, Repr

/-- A call with its success appended to a record. -/
def record {σ α : Type} (label : Bool → BackendCall) (c : Fallible σ α) :
    Fallible (σ × List BackendCall) α where
  run s := ((c.run s.1).1, (c.run s.1).2, s.2 ++ [label (c.run s.1).1.isOk])

/-- The backend with a record of the calls made to it. -/
def DetectorBackend.traced {σ : Type} (b : DetectorBackend σ) :
    DetectorBackend (σ × List BackendCall) where
  isReady s := b.isReady s.1
  modelName s := b.modelName s.1
  isModelReady s := b.isModelReady s.1
  cacheModel data name := record .cacheModel (b.cacheModel data name)
  run input := record .run (b.run input)
  warmup := record .warmup b.warmup

theorem run_record {σ α : Type} (label : Bool → BackendCall) (c : Fallible σ α) (s : σ)
    (calls : List BackendCall) :
    (record label c).run (s, calls) =
      ((c.run s).1, (c.run s).2, calls ++ [label (c.run s).1.isOk]) := rfl

theorem record_eq_ok {σ α : Type} {label : Bool → BackendCall} {c : Fallible σ α} {s : σ} {a : α}
    {calls : List BackendCall} {t : σ × List BackendCall}
    (h : (record label c).run (s, calls) = (.ok a, t)) :
    ∃ s', c.run s = (.ok a, s') ∧ t = (s', calls ++ [label true]) := by
  rw [run_record] at h
  rcases hc : c.run s with ⟨out, s'⟩
  rw [hc] at h
  obtain ⟨rfl, rfl⟩ := Prod.mk.inj h
  exact ⟨s', rfl, rfl⟩

end FrigateZmqDetector
