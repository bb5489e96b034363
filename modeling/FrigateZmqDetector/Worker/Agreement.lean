import FrigateZmqDetector.Worker.Detector

/-!
# Clients agree on the model

Several clients may send models to one worker, or ask about theirs, and each goes by what it is
told. `one_model` is what they can rely on, whatever the library does: once a client has been told
that its model is loaded, every later client is told the same of a model of that name and of no
other one, and the model is one that the worker was given.
-/

namespace FrigateZmqDetector.Worker

open Lib Lib.Eff Protocol Tflite

variable {W : Type} {cli : Cli} {json : SerdeJson} {lib : EdgefirstTflite W} {msg : ZmqMessage}
  {s t : TfliteState W} {w w' : State (TfliteState W)} {e : Event} {events : List Event}
  {name : String}

/-! ### One message -/

abbrev Exchange : Type := ZmqMessage × Reply

/-- The messages that have been answered, with their answers. -/
def State.exchanges {σ : Type} (w : State σ) : List Exchange :=
  w.received.zip (w.sent.map Sent.reply)

/-- A client is told that the model that it names is loaded. -/
def TellsLoaded (json : SerdeJson) (x : Exchange) : Prop :=
  classifyMessage json x.1 = true ∧
    ∃ v, x.2 = [.json v] ∧ v.get "model_loaded" = some (.bool true)

/-- The flag of a reply that is one JSON frame. -/
def loadedFlag : Reply → Bool
  | [.json v] => match v.get "model_loaded" with
    | some (.bool loaded) => loaded
    | _ => false
  | _ => false

theorem loadedFlag_iff (reply : Reply) : loadedFlag reply = true ↔
    ∃ v, reply = [.json v] ∧ v.get "model_loaded" = some (.bool true) := by
  constructor
  · intro h
    unfold loadedFlag at h
    split at h
    · split at h
      · rename_i hv
        exact ⟨_, rfl, h ▸ hv⟩
      · cases h
    · cases h
  · rintro ⟨v, rfl, hloaded⟩
    simp only [loadedFlag, hloaded]

instance (json : SerdeJson) (x : Exchange) : Decidable (TellsLoaded json x) :=
  decidable_of_iff (classifyMessage json x.1 = true ∧ loadedFlag x.2 = true)
    (and_congr_right fun _ => loadedFlag_iff x.2)

/-- The name of a model is that of the file, or came with the bytes of a model. -/
def Given (json : SerdeJson) (cli : Cli) (msgs : List ZmqMessage) (name : String) : Prop :=
  (fileModel cli).bind Prod.snd = some name ∨
    ∃ msg ∈ msgs, ∃ data, transferOf json msg = some (data, name)

theorem Given.mono {msgs msgs' : List ZmqMessage} (h : Given json cli msgs name)
    (hle : msgs ⊆ msgs') : Given json cli msgs' name := by
  rcases h with hfile | ⟨msg, hmsg, htransfer⟩
  · exact Or.inl hfile
  · exact Or.inr ⟨msg, hle hmsg, htransfer⟩

theorem isModelReady_iff (m : TfliteManager) :
    m.isModelReady name = true ↔ m.isReady = true ∧ m.modelName = some name := by
  simp [TfliteManager.isModelReady]

/-- A model that is ready stays so. -/
theorem isModelReady_handle (h : s.manager.isModelReady name = true) :
    (handle json lib s msg).manager.isModelReady name = true := by
  rw [handle_manager, if_pos ((isModelReady_iff _).mp h).1]
  exact h

theorem transferOf_of_passes {l : LoadedModel} (h : passes json lib s msg = some l) :
    transferOf json msg = some (l.bytes, l.name) := by
  obtain ⟨transfer, htransfer, hbuild⟩ := Option.bind_eq_some_iff.mp h
  split at hbuild
  · cases hbuild
    exact htransfer
  · cases hbuild

/-- A message makes ready no model but the one that it transfers. -/
theorem given_handle {msgs : List ZmqMessage}
    (h : ∀ name, s.manager.isModelReady name = true → Given json cli msgs name)
    (hname : (handle json lib s msg).manager.isModelReady name = true) :
    Given json cli (msgs ++ [msg]) name := by
  rw [handle_manager] at hname
  split_ifs at hname with hready
  · exact (h name hname).mono (List.subset_append_left _ _)
  · cases hp : passes json lib s msg with
    | none =>
      rw [hp] at hname
      exact absurd ((isModelReady_iff _).mp hname).1 hready
    | some l =>
      rw [hp] at hname
      obtain rfl : l.name = name := Option.some.inj ((isModelReady_iff _).mp hname).2
      exact Or.inr ⟨msg, by simp, l.bytes, transferOf_of_passes hp⟩

/-- Every reply to a model message has the flag, and the flag is so. -/
theorem dispatch_loaded (hclass : classifyMessage json msg = true) :
    ∃ v, ((dispatch json (tfliteBackend lib) msg).run s).1 = .ok [.json v] ∧
      v.get "model_loaded" =
        some (.bool ((handle json lib s msg).manager.isModelReady (nameOf json msg))) := by
  rw [handle, dispatch, if_pos hclass]
  have hcases := handleModelRequest_cases (tfliteBackend lib) s hclass
  rcases hrun : (handleModelRequest json (tfliteBackend lib) msg).run s with ⟨out, s'⟩
  rw [hrun] at hcases
  cases hcases with
  | query =>
    rw [run_orElse_of_ok hrun]
    exact ⟨_, rfl, (get_modelAvailability ..).2.1⟩
  | same _ _ hname =>
    rw [run_orElse_of_ok hrun]
    exact ⟨_, rfl, (tellsTruth_loaded hname fun hcur => by cases hcur).loaded⟩
  | different _ hready hname =>
    rw [run_orElse_of_ok hrun]
    exact ⟨_, rfl, (tellsTruth_loaded hname fun _ =>
      ⟨hready, isModelReady_eq_false hname hready⟩).loaded⟩
  | cached _ _ hc =>
    rw [run_orElse_of_ok hrun]
    obtain ⟨model, interpreter, w, -, rfl⟩ := cacheModel_eq_ok hc
    refine ⟨_, rfl, (tellsTruth_loaded ?_ fun hcur => by cases hcur).loaded⟩
    simp [TfliteManager.isModelReady, TfliteManager.loaded, TfliteManager.isReady]
  | refused _ hready hc =>
    rw [run_orElse_of_err hrun]
    obtain ⟨w, -, rfl⟩ := cacheModel_eq_err hc
    exact ⟨_, rfl, (tellsTruth_error hready).loaded⟩
  | panicked _ _ hc => exact absurd hc cacheModel_ne_panic

/-- **What a client is told about the model that it names is so.** -/
theorem tellsLoaded_iff {reply : Reply}
    (h : ((dispatch json (tfliteBackend lib) msg).run s).1 = .ok reply) :
    TellsLoaded json (msg, reply) ↔ classifyMessage json msg = true ∧
      (handle json lib s msg).manager.isModelReady (nameOf json msg) = true := by
  refine and_congr_right fun hclass => ?_
  obtain ⟨v, hv, htruth⟩ := dispatch_loaded hclass
  obtain rfl : reply = [.json v] := Outcome.ok.inj (h.symm.trans hv)
  constructor
  · rintro ⟨v', hv', hloaded⟩
    obtain rfl : v = v' := by simpa using hv'
    rw [htruth] at hloaded
    simpa using hloaded
  · intro hready
    exact ⟨v, rfl, by rw [htruth, hready]⟩

/-- The manager has the model of the file, if there is one. -/
def HoldsFile (cli : Cli) (m : TfliteManager) : Prop :=
  ∀ file, fileModel cli = some file → m.isReady = true ∧ m.modelName = file.2

theorem HoldsFile.handle (h : HoldsFile cli s.manager) :
    HoldsFile cli (handle json lib s msg).manager := by
  intro file hfile
  obtain ⟨hready, hname⟩ := h file hfile
  rw [handle_manager, if_pos hready]
  exact ⟨hready, hname⟩

/-! ### Whole runs -/

/-- A client is told that its model is loaded if it names that of the file, and not otherwise. -/
def ToldFile (json : SerdeJson) (cli : Cli) (x : Exchange) : Prop :=
  ∀ file, fileModel cli = some file →
    (TellsLoaded json x ↔ classifyMessage json x.1 = true ∧ file.2 = some (nameOf json x.1))

/-- Once the client of `x` has been told that its model is loaded, that of `y` is told so of this
model and of no other one. -/
def Agree (json : SerdeJson) (x y : Exchange) : Prop :=
  TellsLoaded json x → classifyMessage json y.1 = true →
    (TellsLoaded json y ↔ nameOf json y.1 = nameOf json x.1)

/-- What clients have been told in the exchanges `xs`, and what the next one will be. -/
structure Told (json : SerdeJson) (cli : Cli) (w : State (TfliteState W)) (xs : List Exchange)
    (pending : Option ZmqMessage) : Prop where
  received : w.received = xs.map Prod.fst ++ pending.toList
  sent : w.sent.map Sent.reply = xs.map Prod.snd
  isPending : w.phase.isExited = false → pending = w.phase.pending
  agree : xs.Pairwise (Agree json)
  ready : ∀ i x, xs[i]? = some x → TellsLoaded json x →
    w.backend.manager.isModelReady (nameOf json x.1) = true ∧
      Given json cli ((xs.map Prod.fst).take (i + 1)) (nameOf json x.1)
  given : w.phase.isExited = false → ∀ name, w.backend.manager.isModelReady name = true →
    Given json cli (xs.map Prod.fst ++ w.phase.handled.toList) name
  next : ∀ msg before reply, w.phase = .sending msg before reply →
    (TellsLoaded json (msg, reply) ↔ classifyMessage json msg = true ∧
      w.backend.manager.isModelReady (nameOf json msg) = true)
  file : ∀ x ∈ xs, ToldFile json cli x

structure Agreement (json : SerdeJson) (cli : Cli) (w : State (TfliteState W)) : Prop where
  holds : HoldsFile cli w.backend.manager
  told : ∃ xs pending, Told json cli w xs pending

namespace Agreement

theorem initial (hholds : HoldsFile cli t.manager)
    (hgiven : ∀ name, t.manager.isModelReady name = true → Given json cli [] name) :
    Agreement json cli (.initial cli t) where
  holds := hholds
  told := ⟨[], none, rfl, rfl, fun _ => rfl, .nil, (fun _ _ hx => by cases hx), fun _ => hgiven,
    (fun _ _ _ hp => by cases hp), fun _ hx => by cases hx⟩

variable (h : Agreement json cli w)
include h

theorem quiet (hq : Quiet w w') : Agreement json cli w' where
  holds := hq.backend ▸ h.holds
  told := by
    obtain ⟨xs, pending, ht⟩ := h.told
    refine ⟨xs, pending, hq.received ▸ ht.received, hq.sent ▸ ht.sent, fun hrun => ?_, ht.agree,
      hq.backend ▸ ht.ready, fun hrun => ?_, fun msg before reply hp => ?_, ht.file⟩
    · obtain ⟨hrunning, hpending, -⟩ := hq.running hrun
      rw [hpending]
      exact ht.isPending hrunning
    · obtain ⟨hrunning, -, hhandled⟩ := hq.running hrun
      rw [hhandled, hq.backend]
      exact ht.given hrunning
    · rw [hq.backend]
      rcases hq.handled with hnone | hsame
      · rw [hp] at hnone
        cases hnone
      · exact ht.next msg before reply (hsame ▸ hp)

theorem recv (msg : ZmqMessage) (hp : w.phase = .receiving) :
    Agreement json cli (w.recv msg) := by
  obtain ⟨xs, pending, ht⟩ := h.told
  have hpending : pending = none := by rw [ht.isPending (hp ▸ rfl), hp]; rfl
  have hgiven := ht.given (hp ▸ rfl)
  rw [hp] at hgiven
  refine ⟨h.holds, xs, some msg, ?_, ht.sent, fun _ => rfl, ht.agree, ht.ready,
    fun _ => hgiven, (fun _ _ _ hp' => by cases hp'), ht.file⟩
  show w.received ++ [msg] = _
  rw [ht.received, hpending]
  simp

/-- A dispatch changes no answer that was given. -/
theorem dispatched (hp : w.phase = .dispatching msg) :
    Agreement json cli (w.dispatched json (tfliteBackend lib) msg) := by
  obtain ⟨xs, pending, ht⟩ := h.told
  have hpending : pending = some msg := by rw [ht.isPending (hp ▸ rfl), hp]; rfl
  have hbefore : ∀ name, w.backend.manager.isModelReady name = true →
      Given json cli (xs.map Prod.fst) name := by
    intro name hname
    have hgiven := ht.given (hp ▸ rfl) name hname
    rw [hp] at hgiven
    exact hgiven.mono (by simp [Phase.handled])
  have hready : ∀ i x, xs[i]? = some x → TellsLoaded json x →
      (handle json lib w.backend msg).manager.isModelReady (nameOf json x.1) = true ∧
        Given json cli ((xs.map Prod.fst).take (i + 1)) (nameOf json x.1) := fun i x hx hl =>
    ⟨isModelReady_handle (ht.ready i x hx hl).1, (ht.ready i x hx hl).2⟩
  rcases w.dispatched_cases json (tfliteBackend lib) msg with ⟨reply, hok, hw⟩ | hw <;> rw [hw]
  · refine ⟨h.holds.handle, xs, pending, ht.received, ht.sent,
      fun _ => hpending, ht.agree, hready, fun _ name hname => given_handle hbefore hname,
      fun _ _ _ hp' => ?_, ht.file⟩
    cases hp'
    exact tellsLoaded_iff hok
  · exact ⟨h.holds.handle, xs, pending, ht.received, ht.sent,
      (fun hrun => by cases hrun), ht.agree, hready, (fun hrun => by cases hrun),
      (fun _ _ _ hp' => by cases hp'), ht.file⟩

/-- **A new answer agrees with those before it.** -/
theorem send {before : TfliteState W} {reply : Reply} (outcome : SendOutcome)
    (hp : w.phase = .sending msg before reply) :
    Agreement json cli (w.send msg before reply outcome) := by
  obtain ⟨xs, pending, ht⟩ := h.told
  have hpending : pending = some msg := by rw [ht.isPending (hp ▸ rfl), hp]; rfl
  have hnew := ht.next _ _ _ hp
  have hgiven := ht.given (hp ▸ rfl)
  rw [hp] at hgiven
  have hmsgs : (xs ++ [(msg, reply)]).map Prod.fst = xs.map Prod.fst ++ [msg] := by simp
  have hfile : ToldFile json cli (msg, reply) := by
    intro file hfile
    obtain ⟨hready, hname⟩ := h.holds file hfile
    rw [hnew, isModelReady_iff, hname]
    exact and_congr_right fun _ => ⟨And.right, fun hsame => ⟨hready, hsame⟩⟩
  refine ⟨h.holds, xs ++ [(msg, reply)], none, ?_, ?_, fun _ => rfl, ?_,
    fun i x hx hl => ?_, fun _ name hname => ?_, (fun _ _ _ hp' => by cases hp'),
    List.forall_mem_append.mpr ⟨ht.file, List.forall_mem_singleton.mpr hfile⟩⟩
  · show w.received = _
    rw [ht.received, hpending, hmsgs]
    simp
  · have hsent : (w.send msg before reply outcome).sent = w.sent ++ [⟨before, reply⟩] := rfl
    rw [hsent, List.map_append, List.map_append, ht.sent]
    rfl
  · rw [List.pairwise_append]
    refine ⟨ht.agree, List.pairwise_singleton _ _, fun x hx y hy hl hclass => ?_⟩
    obtain rfl := List.mem_singleton.mp hy
    obtain ⟨i, hi⟩ := List.getElem?_of_mem hx
    obtain ⟨hready, hname⟩ := (isModelReady_iff _).mp (ht.ready i x hi hl).1
    rw [hnew, isModelReady_iff, hname, Option.some.injEq]
    exact ⟨fun hy => hy.2.2.symm, fun hy => ⟨hclass, hready, hy.symm⟩⟩
  · rw [hmsgs]
    rcases Nat.lt_or_ge i xs.length with hlt | hge
    · rw [List.getElem?_append_left hlt] at hx
      rw [List.take_append_of_le_length (by rw [List.length_map]; exact hlt)]
      exact ht.ready i x hx hl
    · rw [List.getElem?_append_right hge, List.getElem?_singleton] at hx
      obtain ⟨-, hx⟩ := Option.ite_none_right_eq_some.mp hx
      cases hx
      have hready := (hnew.mp hl).2
      refine ⟨hready, ?_⟩
      rw [List.take_of_length_le (by simp; omega)]
      exact hgiven _ hready
  · rw [hmsgs]
    exact (hgiven name hname).mono (List.subset_append_left _ _)

/-- **Every step keeps the agreement.** -/
theorem step (hs : (loop cli json (tfliteBackend lib)).step w e = some w') :
    Agreement json cli w' := by
  cases turn_of_step hs with
  | quiet hq => exact h.quiet hq
  | recv msg hp => exact h.recv msg hp
  | dispatched hp => exact h.dispatched hp
  | send outcome hp => exact h.send outcome hp

end Agreement

/-- A worker that enters the loop has the model of the file, and no other one. -/
theorem startup_holds (json : SerdeJson) {native : W}
    (hboot : (startup (tfliteBackend lib) cli).run ⟨selectBackend cli, native⟩ = (.ok (), t)) :
    HoldsFile cli t.manager ∧
      ∀ name, t.manager.isModelReady name = true → Given json cli [] name := by
  obtain ⟨s₁, hkept, hs₁⟩ := startup_cases (I := fun s => HoldsFile cli s.manager ∧
    ∀ name, s.manager.isModelReady name = true → Given json cli [] name)
    (fun s hs => by
      have hm : ((TfliteManager.warmup lib).run s).2.manager = s.manager := keeps_warmup s
      show HoldsFile cli ((TfliteManager.warmup lib).run s).2.manager ∧
        ∀ name, ((TfliteManager.warmup lib).run s).2.manager.isModelReady name = true → _
      rw [hm]
      exact hs) hboot
  rcases hs₁ with ⟨hmodel, rfl⟩ | ⟨file, data, hmodel, hdata, hload⟩
  · refine hkept ⟨fun file hfile => ?_, fun name hname => ?_⟩
    · rw [fileModel, hmodel] at hfile
      cases hfile
    · rw [selectBackend_eq] at hname
      cases hname
  · have hload' : (TfliteManager.cacheModel lib data file.fileName).run
        ⟨selectBackend cli, native⟩ = (.ok (), s₁) := hload
    have hfile : fileModel cli = some (data, file.fileName) := by
      rw [fileModel, hmodel, Option.bind_some, hdata]
      rfl
    obtain ⟨model, interpreter, w, -, rfl⟩ := cacheModel_eq_ok hload'
    refine hkept ⟨fun file' hfile' => ?_, fun name hname => Or.inl ?_⟩
    · cases hfile.symm.trans hfile'
      exact ⟨rfl, rfl⟩
    · rw [hfile, Option.bind_some]
      exact ((isModelReady_iff _).mp hname).2

theorem exec_agreement {native : W}
    (hboot : (startup (tfliteBackend lib) cli).run ⟨selectBackend cli, native⟩ = (.ok (), t))
    (h : (loop cli json (tfliteBackend lib)).exec (.initial cli t) events = some w) :
    Agreement json cli w := by
  obtain ⟨hholds, hgiven⟩ := startup_holds json hboot
  exact Machine.exec_invariant (fun _ _ _ h hs => h.step hs) (.initial hholds hgiven) h

theorem Told.exchanges {xs : List Exchange} {pending : Option ZmqMessage}
    (ht : Told json cli w xs pending) : w.exchanges = xs := by
  have hlen : (xs.map Prod.fst).length = (w.sent.map Sent.reply).length := by simp [ht.sent]
  rw [State.exchanges, ht.received, ← List.append_nil (w.sent.map Sent.reply),
    List.zip_append hlen, ht.sent, List.zip_nil_right, List.append_nil]
  simp [List.zip_map']

/-- Every client with a model message is told whether its model is loaded. -/
theorem exchange_flagged {backend : TfliteState W} {j : ℕ} {y : Exchange}
    (h : (loop cli json (tfliteBackend lib)).exec (.initial cli backend) events = some w)
    (hy : w.exchanges[j]? = some y) (hclass : classifyMessage json y.1 = true) :
    ∃ v loaded, y.2 = [.json v] ∧ v.get "model_loaded" = some (.bool loaded) := by
  obtain ⟨hmsg, hreply⟩ := List.getElem?_zip_eq_some.mp hy
  rw [List.getElem?_map] at hreply
  obtain ⟨a, ha, hsent⟩ := Option.map_eq_some_iff.mp hreply
  obtain ⟨msg, hmsg', hdoc⟩ := (exec_documented h).getElem? ha
  obtain rfl : msg = y.1 := Option.some.inj (hmsg'.symm.trans hmsg)
  unfold DocumentedReply at hdoc
  rw [if_pos hclass, hsent] at hdoc
  obtain ⟨v, loaded, hv, -, hloaded⟩ := hdoc
  exact ⟨v, loaded, hv, hloaded⟩

/-- **Clients agree on one model.** If the client of `x` was told that its model is loaded, then every
later client with a model message is told so if it names this model, and told that its model is not
loaded if it names another one; and the model is that of the file, or came with a message no later
than `x`. -/
theorem one_model {native : W} {i j : ℕ} {x y : Exchange}
    (hboot : (startup (tfliteBackend lib) cli).run ⟨selectBackend cli, native⟩ = (.ok (), t))
    (h : (loop cli json (tfliteBackend lib)).exec (.initial cli t) events = some w)
    (hij : i ≤ j) (hx : w.exchanges[i]? = some x) (hy : w.exchanges[j]? = some y)
    (hl : TellsLoaded json x) :
    (classifyMessage json y.1 = true →
      (TellsLoaded json y ↔ nameOf json y.1 = nameOf json x.1) ∧
      ∃ v, y.2 = [.json v] ∧ v.get "model_loaded" =
        some (.bool (decide (nameOf json y.1 = nameOf json x.1)))) ∧
    Given json cli (w.received.take (i + 1)) (nameOf json x.1) := by
  obtain ⟨xs, pending, ht⟩ := (exec_agreement hboot h).told
  have hflagged := exchange_flagged h hy
  rw [ht.exchanges] at hx hy
  refine ⟨fun hclass => ?_, ?_⟩
  · have hsame : TellsLoaded json y ↔ nameOf json y.1 = nameOf json x.1 := by
      rcases Nat.eq_or_lt_of_le hij with rfl | hlt
      · obtain rfl : x = y := Option.some.inj (hx.symm.trans hy)
        exact iff_of_true hl rfl
      · obtain ⟨hi, rfl⟩ := List.getElem?_eq_some_iff.mp hx
        obtain ⟨hj, rfl⟩ := List.getElem?_eq_some_iff.mp hy
        exact List.pairwise_iff_getElem.mp ht.agree i j hi hj hlt hl hclass
    obtain ⟨v, loaded, hv, hloaded⟩ := hflagged hclass
    have hflag : TellsLoaded json y ↔ loaded = true := by
      refine ⟨fun ⟨_, v', hv', hloaded'⟩ => ?_, fun hl => ⟨hclass, v, hv, hl ▸ hloaded⟩⟩
      obtain rfl : v = v' := by simpa using hv.symm.trans hv'
      simpa using hloaded.symm.trans hloaded'
    refine ⟨hsame, v, hv, ?_⟩
    rw [hloaded, Bool.eq_iff_iff.mpr (hflag.symm.trans (hsame.trans decide_eq_true_iff.symm))]
  · have hle : i + 1 ≤ (xs.map Prod.fst).length := by
      rw [List.length_map]
      exact (List.getElem?_eq_some_iff.mp hx).1
    rw [ht.received, List.take_append_of_le_length hle]
    exact (ht.ready i x hx hl).2

/-- Of two clients that send different models, the first one is told that its model is loaded, and
the second one that its model is not. -/
theorem one_model_two :
    ∃ w x y v, (loop cpuCli transferJson (tfliteBackend smallTflite)).exec
        (.initial cpuCli ⟨selectBackend cpuCli, ()⟩)
        (exchange [transferHeader "ssd", [1]] ++ exchange [transferHeader "yolo", [2]]) = some w ∧
      w.exchanges = [x, y] ∧ TellsLoaded transferJson x ∧ y.2 = [.json v] ∧
      v.get "model_loaded" = some (.bool false) := by
  have hrun : ((loop cpuCli transferJson (tfliteBackend smallTflite)).exec
      (.initial cpuCli ⟨selectBackend cpuCli, ()⟩)
      (exchange [transferHeader "ssd", [1]] ++ exchange [transferHeader "yolo", [2]])).any
        (fun w => w.exchanges.map Prod.fst = [[transferHeader "ssd", [1]],
          [transferHeader "yolo", [2]]] ∧
          ∀ x ∈ w.exchanges.take 1, TellsLoaded transferJson x) = true := by decide +kernel
  obtain ⟨w, hw, htest⟩ := (Option.any_eq_true ..).mp hrun
  obtain ⟨hmsgs, hfirst⟩ := of_decide_eq_true htest
  obtain ⟨x, xs, hxs, hx, hrest⟩ := List.map_eq_cons_iff.mp hmsgs
  obtain ⟨y, ys, rfl, hy, hnil⟩ := List.map_eq_cons_iff.mp hrest
  obtain rfl := List.map_eq_nil_iff.mp hnil
  have hl : TellsLoaded transferJson x := hfirst x (by simp [hxs])
  obtain ⟨-, v, hv, hloaded⟩ := (one_model rfl hw (Nat.zero_le 1) (by rw [hxs]; rfl)
    (by rw [hxs]; rfl) hl).1 (by rw [hy]; decide)
  rw [hx, hy] at hloaded
  exact ⟨w, x, y, v, hw, hxs, hl, hv, hloaded.trans rfl⟩

end FrigateZmqDetector.Worker
