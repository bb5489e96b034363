import FrigateZmqDetector.Tflite.Manager

/-!
# From the command line to a worker

What `run` in `main.rs` does before it enters the request loop: the options checked, the manager of
the selected backend configured, a model file loaded, and a ready backend warmed up.
-/

namespace FrigateZmqDetector.Worker

open Lib Lib.Eff Tflite

inductive BackendKind where
  | edgeTpu
  | teflon
  deriving DecidableEq, Repr

/-- The file of the `--model` option. -/
structure ModelFile where
  /-- The path, as it is logged. -/
  display : String
  /-- The last part of the path, if it is a text. -/
  fileName : Option String
  /-- What reading the file gives, or the debug text of the error. -/
  contents : Except String Bytes

/-- The options of the command line that the worker goes by. -/
structure Cli where
  backend : BackendKind
  edgetpuDelegate : String
  delegate : String
  noDelegate : Bool
  threads : Int32
  model : Option ModelFile
  warmupRuns : ℕ
  inferenceTimeoutMs : ℕ
  recvTimeoutSecs : ℕ
  sendTimeoutSecs : ℕ
  maxNoProgressSecs : ℕ
  maxRequests : ℕ
  maxLifetimeSecs : ℕ

/-- A worker on the CPU, with three warmup runs and the default limits. -/
def cpuCli : Cli where
  backend := .teflon
  edgetpuDelegate := "libedgetpu.so.1.0"
  delegate := "/usr/lib/teflon/libteflon.so"
  noDelegate := true
  threads := 1
  model := none
  warmupRuns := 3
  inferenceTimeoutMs := 150
  recvTimeoutSecs := 30
  sendTimeoutSecs := 5
  maxNoProgressSecs := 60
  maxRequests := 0
  maxLifetimeSecs := 0

/-- That worker with a model file. -/
def fileCli : Cli :=
  { cpuCli with model := some ⟨"/models/ssd.tflite", some "ssd.tflite", .ok [1]⟩ }

/-- Combinations of options that are refused. -/
def validateConfig (cli : Cli) : Except SidecarError Unit :=
  if cli.noDelegate = true ∧ cli.backend = .edgeTpu then
    .error (.invalidConfiguration ("--backend edgetpu requires the EdgeTPU delegate; " ++
      "--no-delegate is only supported with --backend teflon"))
  else .ok ()

def selectBackend (cli : Cli) : TfliteManager :=
  let manager := TfliteManager.new cli.threads
  match cli.backend with
  | .edgeTpu => manager.setDelegate cli.edgetpuDelegate true
  | .teflon =>
    if cli.noDelegate then manager.setDelegate "" false else manager.setDelegate cli.delegate true

section Startup

variable {σ : Type} (b : DetectorBackend σ)

def loadModel (file : ModelFile) : Fallible σ Unit :=
  match file.contents with
  | .ok data => b.cacheModel data file.fileName
  | .error e => throw (.io s!"read {file.display}: {e}")

/-- Warmup runs, until one of them fails. -/
def warmups : ℕ → Fallible σ Unit
  | 0 => pure ()
  | n + 1 => do
    if ← b.warmup.attempt then warmups n else pure ()

/-- The model loaded, if a file is given, and warmed up, if a model is ready. -/
def startup (cli : Cli) : Fallible σ Unit := do
  match cli.model with
  | some file => loadModel b file
  | none => pure ()
  let s ← get
  if b.isReady s = true ∧ 0 < cli.warmupRuns then warmups b cli.warmupRuns else pure ()

/-! ### What a start keeps -/

variable {b : DetectorBackend σ} {I : σ → Prop} {s t : σ}

theorem warmups_invariant (hwarmup : ∀ s, I s → I (b.warmup.run s).2) (n : ℕ) (h : I s) :
    I ((warmups b n).run s).2 := by
  induction n generalizing s with
  | zero => exact h
  | succ n ih =>
    have hkept := hwarmup s h
    rw [← run_attempt_snd] at hkept
    unfold warmups
    rcases hr : b.warmup.attempt.run s with ⟨ok | e | _, s'⟩ <;> rw [hr] at hkept
    · rw [run_bind_of_ok hr]
      cases ok with
      | true => exact ih hkept
      | false => exact hkept
    · rw [run_bind_of_err hr]
      exact hkept
    · rw [run_bind_of_panic hr]
      exact hkept

/-- **What a start comes to**: the model of the file is cached, if there is a file, and warmup runs
keep what holds then. -/
theorem startup_cases {cli : Cli} (hwarmup : ∀ s, I s → I (b.warmup.run s).2)
    (hs : (startup b cli).run s = (.ok (), t)) :
    ∃ s₁, (I s₁ → I t) ∧ ((cli.model = none ∧ s₁ = s) ∨ ∃ file data, cli.model = some file ∧
      file.contents = .ok data ∧ (b.cacheModel data file.fileName).run s = (.ok (), s₁)) := by
  have hrest : ∀ s₁, ((get : Fallible σ σ) >>= fun s =>
      if b.isReady s = true ∧ 0 < cli.warmupRuns then warmups b cli.warmupRuns
      else pure ()).run s₁ = (.ok (), t) → I s₁ → I t := by
    intro s₁ hrun hs₁
    rw [run_bind_of_ok run_get] at hrun
    split_ifs at hrun
    · have ht : _ = t := congrArg Prod.snd hrun
      exact ht ▸ warmups_invariant hwarmup _ hs₁
    · cases hrun
      exact hs₁
  unfold startup at hs
  cases hmodel : cli.model with
  | none =>
    rw [hmodel] at hs
    exact ⟨s, hrest s hs, Or.inl ⟨rfl, rfl⟩⟩
  | some file =>
    rw [hmodel] at hs
    obtain ⟨_, s₁, hload, hs⟩ := run_bind_eq_ok hs
    unfold loadModel at hload
    split at hload
    · exact ⟨s₁, hrest s₁ hs, Or.inr ⟨file, _, rfl, ‹_›, hload⟩⟩
    · cases hload

end Startup

end FrigateZmqDetector.Worker
