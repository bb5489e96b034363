import FrigateZmqDetector.Protocol.FirstModel

/-!
# Model-management replies tell the truth

`Reached` are the managers that a worker can have: fresh, with a model from a file or a transfer,
warmed up, and after any messages. In all of them a manager with a name has an interpreter, which
is what the reply to a query relies on when it names the current model.
-/

namespace FrigateZmqDetector.Protocol

open Lib Lib.Eff Tflite

variable {W : Type} {json : SerdeJson} {lib : EdgefirstTflite W} {msg : ZmqMessage}
  {s : TfliteState W}

inductive Reached (json : SerdeJson) (lib : EdgefirstTflite W) : TfliteState W → Prop
  | fresh (threads : Int32) (path : String) (enabled : Bool) (w : W) :
    Reached json lib ⟨(TfliteManager.new threads).setDelegate path enabled, w⟩
  /-- A model read from a file, whose name may not be a text. -/
  | file {s : TfliteState W} (h : Reached json lib s) (data : Bytes) (name : Option String) :
    Reached json lib ((TfliteManager.cacheModel lib data name).run s).2
  | warmup {s : TfliteState W} (h : Reached json lib s) :
    Reached json lib ((TfliteManager.warmup lib).run s).2
  | message {s : TfliteState W} (h : Reached json lib s) (msg : ZmqMessage) :
    Reached json lib (handle json lib s msg)

/-- A manager that has a name has an interpreter. -/
theorem Reached.isReady_of_name (h : Reached json lib s) (hname : s.manager.modelName ≠ none) :
    s.manager.isReady = true := by
  induction h with
  | fresh => exact absurd rfl hname
  | @file s _ data name ih =>
    rcases cacheModel_cases lib s data name with
      ⟨model, interpreter, w, -, hc⟩ | ⟨e, w, -, hc⟩
    · rw [hc]
      rfl
    · rw [hc] at hname ⊢
      exact ih hname
  | @warmup s _ ih =>
    rw [keeps_warmup s] at hname ⊢
    exact ih hname
  | @message s _ msg ih =>
    rw [handle_manager] at hname ⊢
    split_ifs at hname ⊢ with hready
    · exact hready
    · cases hp : passes json lib s msg with
      | none =>
        rw [hp] at hname
        exact absurd (ih hname) hready
      | some l => rfl

/-- What a truthful reply says about the state `s` after it, for the model `name`. -/
structure TellsTruth (v : Value) (name : String) (s : TfliteState W) : Prop where
  loaded : v.get "model_loaded" = some (.bool (s.manager.isModelReady name))
  saved : ∀ x, v.get "model_saved" = some x → x = .bool (s.manager.isModelReady name)
  available : ∀ x, v.get "model_available" = some x → x = .bool (s.manager.isModelReady name)
  /-- The current model is only told when there is one, and it is another. -/
  current : (v.get "current_model").isSome = true →
    s.manager.isReady = true ∧ s.manager.modelName ≠ some name

theorem isModelReady_eq_false {m : TfliteManager} {name : String} (h : m.isModelReady name = false)
    (hready : m.isReady = true) : m.modelName ≠ some name := by
  intro hname
  rw [TfliteManager.isModelReady, hready, hname] at h
  simp at h

theorem tellsTruth_availability (h : Reached json lib s) (name : String) :
    TellsTruth (modelAvailability name (s.manager.isModelReady name) s.manager.modelName) name
      s := by
  obtain ⟨-, hloaded, hav, hsaved, hcur⟩ :=
    get_modelAvailability name (s.manager.isModelReady name) s.manager.modelName
  refine ⟨hloaded, fun x hx => ?_, fun x hx => ?_, fun hsome => ?_⟩
  · rw [hsaved] at hx
    cases hx
  · rw [hav, Option.some.injEq] at hx
    exact hx.symm
  · rw [hcur] at hsome
    split_ifs at hsome with hl
    · cases hsome
    · rw [Option.isSome_map] at hsome
      have hready := h.isReady_of_name (Option.isSome_iff_ne_none.mp hsome)
      exact ⟨hready, isModelReady_eq_false (Bool.eq_false_iff.mpr hl) hready⟩

theorem tellsTruth_loaded {name : String} {loaded : Bool} {message current : Option String}
    (h : s.manager.isModelReady name = loaded)
    (hcur : current.isSome = true → s.manager.isReady = true ∧ s.manager.modelName ≠ some name) :
    TellsTruth (modelLoaded name loaded loaded message current) name s := by
  obtain ⟨-, hloaded, hav, hsaved, hcurrent⟩ := get_modelLoaded name loaded loaded message current
  refine ⟨h.symm ▸ hloaded, fun x hx => ?_, fun x hx => ?_, fun hsome => ?_⟩
  · rw [hsaved, Option.some.injEq] at hx
    rw [h, hx]
  · rw [hav] at hx
    cases hx
  · rw [hcurrent, Option.isSome_map] at hsome
    exact hcur hsome

theorem tellsTruth_error {name : String} (h : s.manager.isReady = false) :
    TellsTruth modelError name s := by
  have hget : ∀ key, modelError.get key = findMember key
      [("model_available", .bool false), ("model_loaded", .bool false)] :=
    Value.get_ofMembers (by simp)
  have hm : s.manager.isModelReady name = false := by
    rw [TfliteManager.isModelReady, h, Bool.false_and]
  refine ⟨?_, fun x hx => ?_, fun x hx => ?_, fun hsome => ?_⟩
  · rw [hget, hm]
    simp [findMember]
  · simp [hget, findMember] at hx
  · rw [hm]
    simpa [hget, findMember, eq_comm] using hx
  · simp [hget, findMember] at hsome

/-- **Model-management replies tell the truth**, and the only error behind one is that of
`cache_model`. -/
theorem model_replies_truthful (hr : Reached json lib s) (h : classifyMessage json msg = true) :
    (∃ v, ((dispatch json (tfliteBackend lib) msg).run s).1 = .ok [.json v] ∧
      TellsTruth v (nameOf json msg) (handle json lib s msg)) ∧
    ∀ e, ((handleModelRequest json (tfliteBackend lib) msg).run s).1 = .err e →
      ∃ data, msg[1]? = some data ∧
        ((TfliteManager.cacheModel lib data (some (nameOf json msg))).run s).1 = .err e := by
  rw [handle, dispatch, if_pos h]
  have hcases := handleModelRequest_cases (tfliteBackend lib) s h
  rcases hrun : (handleModelRequest json (tfliteBackend lib) msg).run s with ⟨out, s'⟩
  rw [hrun] at hcases
  cases hcases with
  | query =>
    rw [run_orElse_of_ok hrun]
    exact ⟨⟨_, rfl, tellsTruth_availability hr _⟩, fun e he => by cases he⟩
  | same _ _ hname =>
    rw [run_orElse_of_ok hrun]
    exact ⟨⟨_, rfl, tellsTruth_loaded hname fun hc => by cases hc⟩, fun e he => by cases he⟩
  | different _ hready hname =>
    rw [run_orElse_of_ok hrun]
    exact ⟨⟨_, rfl, tellsTruth_loaded hname fun _ => ⟨hready, isModelReady_eq_false hname hready⟩⟩,
      fun e he => by cases he⟩
  | cached _ _ hc =>
    rw [run_orElse_of_ok hrun]
    obtain ⟨model, interpreter, w, -, rfl⟩ := cacheModel_eq_ok hc
    refine ⟨⟨_, rfl, tellsTruth_loaded ?_ fun hc => by cases hc⟩, fun e he => by cases he⟩
    simp [TfliteManager.isModelReady, TfliteManager.loaded, TfliteManager.isReady]
  | refused hdata hready hc =>
    rw [run_orElse_of_err hrun]
    obtain ⟨w, -, rfl⟩ := cacheModel_eq_err hc
    refine ⟨⟨_, rfl, tellsTruth_error hready⟩, fun e he => ⟨_, hdata, ?_⟩⟩
    cases he
    exact congrArg Prod.fst hc
  | panicked _ _ hc => exact absurd hc cacheModel_ne_panic

/-- A manager with a model from a file whose name is no text declines a transfer, and says so. -/
theorem model_replies_truthful_nameless :
    let s := ((TfliteManager.cacheModel smallTflite [1] none).run smallState).2
    ∃ v, ((dispatch transferJson (tfliteBackend smallTflite) [transferHeader "ssd", [2]]).run s).1 =
        .ok [.json v] ∧
      TellsTruth v "ssd" (handle transferJson smallTflite s [transferHeader "ssd", [2]]) :=
  have hname : nameOf transferJson [transferHeader "ssd", [2]] = "ssd" := by decide
  hname ▸ (model_replies_truthful (.file (.fresh 1 "" false ()) [1] none) (by decide)).1

end FrigateZmqDetector.Protocol
