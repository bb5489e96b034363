import FrigateZmqDetector.Lib.Simulation
import FrigateZmqDetector.Worker.Replies

/-!
# Whether a model is warmed up before it serves

The record of the backend calls of a worker (`DetectorBackend.traced`) shows for every inference
whether its interpreter had been warmed up. A call is on record when it has returned; a run that
hangs until one of the watchdogs ends the process never does, so `calling` tells the invocation of
a run from its end. A model from a file has been warmed up: the warmup runs follow its loading. A
model from a transfer never is, since nothing in the loop warms up: `warmed_iff` says that such a
worker keeps the promise only as long as it serves no request.
-/

namespace FrigateZmqDetector.Worker

open Lib Lib.Eff Protocol Tflite

variable {W : Type} {cli : Cli} {json : SerdeJson} {lib : EdgefirstTflite W}
  {calls : List BackendCall} {s : TfliteState W} {t : TfliteState W × List BackendCall}
  {w w' : State (TfliteState W × List BackendCall)} {msg : ZmqMessage}

/-! ### Calls in order -/

/-- Whether there is an interpreter, and whether a warmup has been attempted on it. -/
def warmStep : Option Bool → BackendCall → Option Bool
  | _, .cacheModel true => some false
  | some _, .warmup _ => some true
  | state, _ => state

/-- The state of the interpreter after these calls. -/
def warmState (calls : List BackendCall) : Option Bool := calls.foldl warmStep none

/-- **No inference on an interpreter that was never warmed up.** -/
def WarmBeforeRun (calls : List BackendCall) : Prop :=
  ∀ before ok after, calls = before ++ .run ok :: after → warmState before ≠ some false

@[simp] theorem warmState_snoc (c : BackendCall) :
    warmState (calls ++ [c]) = warmStep (warmState calls) c := by
  rw [warmState, List.foldl_append]
  rfl

theorem warmBeforeRun_nil : WarmBeforeRun [] := by
  intro before ok after h
  cases before <;> cases h

theorem warmBeforeRun_snoc (calls : List BackendCall) (c : BackendCall) :
    WarmBeforeRun (calls ++ [c]) ↔
      WarmBeforeRun calls ∧ ∀ ok, c = .run ok → warmState calls ≠ some false := by
  constructor
  · refine fun h => ⟨fun before ok after heq => ?_, fun ok hc => h calls ok [] (by rw [hc])⟩
    exact h before ok (after ++ [c]) (by rw [heq, List.append_assoc, List.cons_append])
  · rintro ⟨h, hc⟩ before ok after heq
    rcases List.eq_nil_or_concat after with rfl | ⟨after', c', rfl⟩
    · obtain ⟨rfl, hlast⟩ := List.append_inj' heq rfl
      exact hc ok (List.cons.inj hlast).1
    · rw [List.concat_eq_append, ← List.cons_append, ← List.append_assoc] at heq
      exact h before ok after' (List.append_inj' heq rfl).1

/-- Whether a run succeeds has no part in it. -/
theorem warmBeforeRun_run (calls : List BackendCall) (ok ok' : Bool) :
    WarmBeforeRun (calls ++ [.run ok]) ↔ WarmBeforeRun (calls ++ [.run ok']) := by
  simp [warmBeforeRun_snoc]

/-- Warmups serve nothing, and warm up the interpreter there is. -/
theorem warmups_calls {cold : Bool} (oks : List Bool) (h : WarmBeforeRun calls)
    (hstate : warmState calls = some cold) (hne : oks ≠ [] ∨ cold = true) :
    WarmBeforeRun (calls ++ oks.map .warmup) ∧
      warmState (calls ++ oks.map .warmup) = some true := by
  induction oks generalizing calls cold with
  | nil =>
    rw [List.map_nil, List.append_nil]
    exact ⟨h, hne.resolve_left (fun hn => hn rfl) ▸ hstate⟩
  | cons ok oks ih =>
    rw [List.map_cons, ← List.singleton_append, ← List.append_assoc]
    refine ih ((warmBeforeRun_snoc _ _).mpr ⟨h, fun _ hc => by cases hc⟩) ?_ (Or.inr rfl)
    rw [warmState_snoc, hstate]
    rfl

/-! ### Before the loop -/

/-- The state in which a worker enters the loop. -/
def Boots (cli : Cli) (lib : EdgefirstTflite W) (native : W)
    (t : TfliteState W × List BackendCall) : Prop :=
  validateConfig cli = .ok () ∧
    (startup (tfliteBackend lib).traced cli).run (⟨selectBackend cli, native⟩, []) = (.ok (), t)

theorem selectBackend_isReady (cli : Cli) : (selectBackend cli).isReady = false := by
  unfold selectBackend
  cases cli.backend with
  | edgeTpu => rfl
  | teflon =>
    dsimp only
    split_ifs <;> rfl

/-- Warmup runs leave the record of the manager alone; at least one is attempted. -/
theorem warmups_spec {n : ℕ} {t t' : TfliteState W × List BackendCall}
    (h : (warmups (tfliteBackend lib).traced n).run t = (.ok (), t')) :
    t'.1.manager = t.1.manager ∧
      ∃ oks : List Bool, t'.2 = t.2 ++ oks.map .warmup ∧ (0 < n → oks ≠ []) := by
  induction n generalizing t with
  | zero =>
    cases h
    exact ⟨rfl, [], (List.append_nil _).symm, fun h => absurd h (Nat.lt_irrefl 0)⟩
  | succ n ih =>
    obtain ⟨ok, t₁, hok, hrest⟩ := run_bind_eq_ok h
    have ht₁ : t₁ = ((tfliteBackend lib).traced.warmup.run t).2 := by
      rw [← run_attempt_snd, hok]
    have hmanager : t₁.1.manager = t.1.manager := by
      rw [ht₁]
      exact keeps_warmup t.1
    obtain ⟨first, hcalls⟩ : ∃ first, t₁.2 = t.2 ++ [.warmup first] := by
      rw [ht₁]
      exact ⟨_, rfl⟩
    cases ok with
    | false =>
      cases hrest
      exact ⟨hmanager, [first], hcalls, fun _ => List.cons_ne_nil _ _⟩
    | true =>
      obtain ⟨hm, oks, hoks, -⟩ := ih hrest
      refine ⟨hm.trans hmanager, first :: oks, ?_, fun _ => List.cons_ne_nil _ _⟩
      rw [hoks, hcalls, List.append_assoc]
      rfl

theorem startup_none {t t' : TfliteState W × List BackendCall} (hmodel : cli.model = none)
    (hready : t.1.manager.isReady = false)
    (h : (startup (tfliteBackend lib).traced cli).run t = (.ok (), t')) : t' = t := by
  have hready' : ¬ (tfliteBackend lib).traced.isReady t = true := Bool.eq_false_iff.mp hready
  rw [startup, hmodel] at h
  dsimp only at h
  rw [run_bind_of_ok run_get, if_neg fun hr => hready' hr.1] at h
  exact (Prod.mk.inj h).2.symm

/-- With a model file the model has been warmed up when the worker enters the loop. -/
theorem startup_some {file : ModelFile} {t' : TfliteState W × List BackendCall}
    (hruns : 0 < cli.warmupRuns) (hmodel : cli.model = some file)
    (h : (startup (tfliteBackend lib).traced cli).run (s, []) = (.ok (), t')) :
    t'.1.manager.isReady = true ∧ WarmBeforeRun t'.2 ∧ warmState t'.2 = some true := by
  rw [startup, hmodel] at h
  dsimp only at h
  obtain ⟨_, t₁, hload, h⟩ := run_bind_eq_ok h
  rw [run_bind_of_ok run_get] at h
  unfold loadModel at hload
  split at hload
  · rename_i data hdata
    obtain ⟨s', hc, rfl⟩ := record_eq_ok hload
    obtain ⟨model, interpreter, w, -, rfl⟩ := cacheModel_eq_ok hc
    rw [if_pos ⟨rfl, hruns⟩] at h
    obtain ⟨hm, oks, hoks, hne⟩ := warmups_spec h
    have hcold : WarmBeforeRun [.cacheModel true] :=
      (warmBeforeRun_snoc [] _).mpr ⟨warmBeforeRun_nil, nofun⟩
    rw [hm, hoks]
    exact ⟨rfl, warmups_calls oks hcold rfl (Or.inl (hne hruns))⟩
  · cases hload

/-! ### In the loop -/

def WantsInference (json : SerdeJson) (msg : ZmqMessage) : Prop :=
  classifyMessage json msg = false ∧ 2 ≤ msg.length

/-- A ready backend runs an inference for a request that wants one, and is not called otherwise. -/
theorem callsOf_ready (json : SerdeJson) (lib : EdgefirstTflite W) (msg : ZmqMessage)
    (hready : s.manager.isReady = true) :
    (WantsInference json msg → ∃ ok, callsOf json (tfliteBackend lib) msg s = [.run ok]) ∧
      (¬ WantsInference json msg → callsOf json (tfliteBackend lib) msg s = []) := by
  have hready' : (tfliteBackend lib).isReady s = true := hready
  unfold callsOf
  rcases hdata : msg[1]? with _ | data
  · refine ⟨fun hwants => ?_, fun _ => rfl⟩
    have hlen := List.getElem?_eq_none_iff.mp hdata
    exact absurd hwants.2 (by omega)
  · have hlen : 2 ≤ msg.length := (List.getElem?_eq_some_iff.mp hdata).1
    dsimp only
    rw [if_pos hready', if_pos hready']
    split_ifs with hc
    · exact ⟨fun hwants => absurd hc (Bool.eq_false_iff.mp hwants.1), fun _ => rfl⟩
    · exact ⟨fun _ => ⟨_, rfl⟩, fun hno => absurd ⟨Bool.eq_false_iff.mpr hc, hlen⟩ hno⟩

/-- A backend that is not ready is only asked to cache a model, and is ready when that succeeds. -/
theorem callsOf_notReady (json : SerdeJson) (lib : EdgefirstTflite W) (msg : ZmqMessage)
    (hready : s.manager.isReady = false) :
    (callsOf json (tfliteBackend lib) msg s = [.cacheModel true] ∧
        (handle json lib s msg).manager.isReady = true) ∨
      (callsOf json (tfliteBackend lib) msg s = [] ∨
          callsOf json (tfliteBackend lib) msg s = [.cacheModel false]) ∧
        (handle json lib s msg).manager.isReady = false := by
  have hready' : ¬ (tfliteBackend lib).isReady s = true := Bool.eq_false_iff.mp hready
  rw [handle_manager, if_neg (Bool.eq_false_iff.mp hready)]
  unfold callsOf passes
  by_cases hc : classifyMessage json msg = true
  · rw [transferOf_of_classify hc]
    rcases msg[1]? with _ | data
    · exact Or.inr ⟨Or.inl rfl, hready⟩
    · dsimp only
      rw [if_pos hc, if_neg hready', Option.map_some, Option.bind_some]
      rcases cacheModel_cases lib s data (some (nameOf json msg)) with
        ⟨model, interpreter, w, ha, hr⟩ | ⟨e, w, ha, hr⟩
      · have hcall : ((tfliteBackend lib).cacheModel data (some (nameOf json msg))).run s = _ := hr
        rw [ha, hcall]
        exact Or.inl ⟨rfl, rfl⟩
      · have hcall : ((tfliteBackend lib).cacheModel data (some (nameOf json msg))).run s = _ := hr
        rw [ha, hcall]
        exact Or.inr ⟨Or.inr rfl, hready⟩
  · rw [transferOf, if_neg hc]
    refine Or.inr ⟨Or.inl ?_, hready⟩
    rcases msg[1]? with _ | data
    · rfl
    · dsimp only
      rw [if_neg hc, if_neg hready']

/-- What answering a message does to the backend and the record of its calls. -/
def serve (json : SerdeJson) (lib : EdgefirstTflite W) (t : TfliteState W × List BackendCall)
    (msg : ZmqMessage) : TfliteState W × List BackendCall :=
  (handle json lib t.1 msg, t.2 ++ callsOf json (tfliteBackend lib) msg t.1)

theorem backend_of_step_traced {e : Event}
    (hs : (loop cli json (tfliteBackend lib).traced).step w e = some w') :
    (e ≠ .dispatch ∧ w'.backend = w.backend) ∨ ∃ msg, e = .dispatch ∧ w.phase = .dispatching msg ∧
      w'.backend = serve json lib w.backend msg := by
  rcases backend_of_step hs with h | ⟨msg, he, hp, hb⟩
  · exact Or.inl h
  · refine Or.inr ⟨msg, he, hp, ?_⟩
    rw [hb, dispatch_traced]
    rfl

structure Warm (t : TfliteState W × List BackendCall) : Prop where
  ready : t.1.manager.isReady = true
  warm : warmState t.2 = some true
  served : WarmBeforeRun t.2

/-- It stays warmed up. -/
theorem Warm.serve (h : Warm t) (msg : ZmqMessage) : Warm (serve json lib t msg) := by
  have hready : (handle json lib t.1 msg).manager.isReady = true := by
    rw [handle_manager, if_pos h.ready]
    exact h.ready
  have hcalls := callsOf_ready json lib msg h.ready
  by_cases hwants : WantsInference json msg
  · obtain ⟨ok, hrun⟩ := hcalls.1 hwants
    refine ⟨hready, ?_, ?_⟩
    · show warmState (t.2 ++ _) = _
      rw [hrun, warmState_snoc, h.warm]
      rfl
    · show WarmBeforeRun (t.2 ++ _)
      rw [hrun, warmBeforeRun_snoc]
      refine ⟨h.served, fun _ _ => ?_⟩
      rw [h.warm]
      decide
  · have hnil := hcalls.2 hwants
    refine ⟨hready, ?_, ?_⟩
    · show warmState (t.2 ++ _) = _
      rw [hnil, List.append_nil, h.warm]
    · show WarmBeforeRun (t.2 ++ _)
      rw [hnil, List.append_nil]
      exact h.served

/-- No model has been warmed up. -/
def Cold (t : TfliteState W × List BackendCall) : Prop :=
  warmState t.2 = if t.1.manager.isReady then some false else none

/-- That stays so as well, and what is served is served cold. -/
theorem Cold.serve (h : Cold t) (msg : ZmqMessage) :
    Cold (serve json lib t msg) ∧
      (WarmBeforeRun (serve json lib t msg).2 ↔
        WarmBeforeRun t.2 ∧ (WantsInference json msg → t.1.manager.isReady = false)) := by
  unfold Cold at h ⊢
  unfold Worker.serve
  cases hready : t.1.manager.isReady with
  | true =>
    have hkept : (handle json lib t.1 msg).manager.isReady = true := by
      rw [handle_manager, if_pos hready, hready]
    have hcalls := callsOf_ready json lib msg hready
    rw [hready, if_pos rfl] at h
    rw [hkept, if_pos rfl]
    by_cases hwants : WantsInference json msg
    · obtain ⟨ok, hrun⟩ := hcalls.1 hwants
      rw [hrun, warmState_snoc, h, warmBeforeRun_snoc]
      refine ⟨rfl, and_congr_right fun _ => ⟨fun hno => absurd h (hno ok rfl), fun hno => ?_⟩⟩
      cases hno hwants
    · rw [hcalls.2 hwants, List.append_nil]
      exact ⟨h, (and_iff_left fun hw => absurd hw hwants).symm⟩
  | false =>
    rw [hready, if_neg (by decide)] at h
    have hserved : ∀ c, (∀ ok, c ≠ .run ok) → (WarmBeforeRun (t.2 ++ [c]) ↔
        WarmBeforeRun t.2 ∧ (WantsInference json msg → false = false)) := fun c hc =>
      (warmBeforeRun_snoc _ c).trans (and_congr_right fun _ =>
        ⟨fun _ _ => rfl, fun _ ok hrun => absurd hrun (hc ok)⟩)
    rcases callsOf_notReady json lib msg hready with
      ⟨hcalls, hkept⟩ | ⟨hcalls | hcalls, hkept⟩ <;> rw [hcalls, hkept]
    · exact ⟨by rw [warmState_snoc]; rfl, hserved _ fun _ hc => by cases hc⟩
    · rw [List.append_nil]
      exact ⟨h, (and_iff_left fun _ => rfl).symm⟩
    · exact ⟨by rw [warmState_snoc, h]; rfl, hserved _ fun _ hc => by cases hc⟩

/-! ### Runs that have not returned -/

/-- The loop, and whether a run of the backend has been invoked that has not returned. -/
structure Calling (W : Type) where
  loop : State (TfliteState W × List BackendCall)
  invoked : Bool

inductive CallEvent where
  | loop (e : Event)
  | invoke
  deriving DecidableEq, Repr

/-- The handler has come to an inference that the backend is to run. -/
def runDue (json : SerdeJson) (w : State (TfliteState W × List BackendCall)) : Bool :=
  match w.phase with
  | .dispatching msg => !classifyMessage json msg && decide (2 ≤ msg.length) &&
      w.backend.1.manager.isReady
  | _ => false

namespace Calling

def initial (cli : Cli) (t : TfliteState W × List BackendCall) : Calling W := ⟨.initial cli t, false⟩

/-- The calls made so far. One that has not returned has not succeeded. -/
def made (s : Calling W) : List BackendCall :=
  s.loop.backend.2 ++ if s.invoked then [.run false] else []

end Calling

/-- **The loop with the invocation of a run apart from its end.** A run that is due is invoked before
it ends, by returning to the handler or with the process. -/
def calling (cli : Cli) (json : SerdeJson) (lib : EdgefirstTflite W) :
    Machine (Calling W) CallEvent where
  step s
    | .invoke => if runDue json s.loop ∧ s.invoked = false then some { s with invoked := true }
      else none
    | .loop e =>
      if (e = .dispatch ∨ e = .nativeTimeout) ∧ runDue json s.loop ∧ s.invoked = false then none
      else ((loop cli json (tfliteBackend lib).traced).step s.loop e).map fun w =>
        ⟨w, s.invoked && decide (e ≠ .dispatch)⟩

inductive CallStep (cli : Cli) (json : SerdeJson) (lib : EdgefirstTflite W) (s : Calling W) :
    CallEvent → Calling W → Prop
  | invoke (hdue : runDue json s.loop = true) (h : s.invoked = false) :
    CallStep cli json lib s .invoke { s with invoked := true }
  | loop {e : Event} {w : State (TfliteState W × List BackendCall)}
    (hdone : e = .dispatch ∨ e = .nativeTimeout → runDue json s.loop = true → s.invoked = true)
    (h : (loop cli json (tfliteBackend lib).traced).step s.loop e = some w) :
    CallStep cli json lib s (.loop e) ⟨w, s.invoked && decide (e ≠ .dispatch)⟩

variable {c c' : Calling W} {e : Event} {a : CallEvent} {acts : List CallEvent}

theorem calling_step_cases (hs : (calling cli json lib).step c a = some c') :
    CallStep cli json lib c a c' := by
  cases a with
  | invoke =>
    obtain ⟨⟨hdue, hinvoked⟩, h⟩ := Option.ite_none_right_eq_some.mp hs
    cases h
    exact .invoke hdue hinvoked
  | loop e =>
    obtain ⟨hdone, h⟩ := Option.ite_none_left_eq_some.mp hs
    obtain ⟨w, hw, rfl⟩ := Option.map_eq_some_iff.mp h
    exact .loop (fun he hdue => Bool.of_not_eq_false fun hno => hdone ⟨he, hdue, hno⟩) hw

theorem runDue_iff : runDue json w = true ↔ ∃ msg, w.phase = .dispatching msg ∧
    WantsInference json msg ∧ w.backend.1.manager.isReady = true := by
  unfold runDue WantsInference
  split
  · rename_i msg hp
    simp only [Bool.and_eq_true, Bool.not_eq_true', decide_eq_true_eq, hp, Phase.dispatching.injEq,
      exists_eq_left']
  · rename_i hno
    exact ⟨nofun, fun ⟨msg, hp, _⟩ => (hno msg hp).elim⟩

/-- A run that has not returned is one that is due, while the process is there. -/
def Calling.Due (json : SerdeJson) (c : Calling W) : Prop :=
  c.invoked = true → c.loop.phase.isExited = false → runDue json c.loop = true

theorem Calling.Due.step (h : c.Due json) (hs : (calling cli json lib).step c a = some c') :
    c'.Due json := by
  cases calling_step_cases hs with
  | invoke hdue => exact fun _ _ => hdue
  | @loop e w hdone hw =>
    intro hinvoked hrun'
    obtain ⟨hinvoked, hne⟩ := Bool.and_eq_true_iff.mp hinvoked
    have hne : e ≠ .dispatch := of_decide_eq_true hne
    have hsame : ∀ {w' : State (TfliteState W × List BackendCall)}, w'.phase = c.loop.phase →
        w'.backend = c.loop.backend → c.loop.phase.isExited = false → runDue json w' = true := by
      intro w' hp hb hrun
      have hdue := h hinvoked hrun
      rw [runDue_iff] at hdue ⊢
      rwa [hp, hb]
    have hother : ∀ {p}, c.loop.phase = p → (∀ msg, p ≠ .dispatching msg) → p.isExited = true := by
      intro p hp hno
      by_contra hrun
      obtain ⟨msg, hd, -⟩ := runDue_iff.mp (h hinvoked (hp ▸ Bool.eq_false_iff.mpr hrun))
      exact hno msg (hp.symm.trans hd)
    cases step_cases hw with
    | tick ms hrun => exact hsame rfl rfl hrun
    | monitor hrun =>
      change (c.loop.check .monitor).phase.isExited = false at hrun'
      rcases c.loop.check_cases .monitor with ⟨-, hw'⟩ | ⟨reason, -, hw'⟩
      · show runDue json (c.loop.check .monitor) = true
        rw [hw']
        exact hsame rfl rfl hrun
      · rw [hw'] at hrun'
        cases hrun'
    | dispatch => exact absurd rfl hne
    | nativeTimeout => cases hrun'
    | recv _ hp | recvTimeout hp | recvError hp | start hp | send _ hp | update hp =>
      cases hother hp nofun

/-- **Every run of this machine is a run of the loop.** -/
theorem calling_simulates : Machine.Simulates (calling cli json lib)
    (loop cli json (tfliteBackend lib).traced) fun c w => w = c.loop := by
  rintro c w a c' rfl hs
  cases calling_step_cases hs with
  | invoke => exact Machine.match_none rfl
  | loop _ hw => exact Machine.match_one hw rfl

/-- **Every run of the loop is a run of this machine**: what is due is invoked. -/
theorem loop_simulates : Machine.Simulates (loop cli json (tfliteBackend lib).traced)
    (calling cli json lib) fun w c => c.loop = w := by
  rintro w c e w' rfl hs
  have hstep : ∀ {c' : Calling W}, c'.loop = c.loop →
      (e = .dispatch ∨ e = .nativeTimeout → runDue json c'.loop = true → c'.invoked = true) →
      (calling cli json lib).step c' (.loop e) = some ⟨w', c'.invoked && decide (e ≠ .dispatch)⟩ := by
    intro c' hc hdone
    refine (if_neg ?_).trans ?_
    · rintro ⟨he, hdue, hno⟩
      rw [hdone he hdue] at hno
      cases hno
    · rw [hc, hs, Option.map_some]
  by_cases hdue : runDue json c.loop = true ∧ c.invoked = false
  · have hinvoke : (calling cli json lib).step c .invoke = some { c with invoked := true } :=
      if_pos hdue
    exact Machine.match_two hinvoke (hstep rfl fun _ _ => rfl) rfl
  · refine Machine.match_one (hstep rfl fun _ hd => ?_) rfl
    exact Bool.of_not_eq_false fun hno => hdue ⟨hd, hno⟩

/-- No run is invoked in this step: it is not about an inference on a loaded model. -/
def NotServed (json : SerdeJson) (c : Calling W) (a : CallEvent) (_ : Calling W) : Prop :=
  ∀ msg, a = .invoke → c.loop.phase = .dispatching msg → WantsInference json msg →
    c.loop.backend.1.manager.isReady = false

theorem Warm.step (h : Warm c.loop.backend) (hs : (calling cli json lib).step c a = some c') :
    Warm c'.loop.backend := by
  cases calling_step_cases hs with
  | invoke => exact h
  | loop hdone hw =>
    rcases backend_of_step_traced hw with ⟨-, hb⟩ | ⟨msg, -, -, hb⟩
    · exact hb ▸ h
    · exact hb ▸ h.serve msg

/-- A run that has not returned is warm as well. -/
theorem Warm.made (h : Warm c.loop.backend) : WarmBeforeRun c.made := by
  unfold Calling.made
  split_ifs
  · refine (warmBeforeRun_snoc _ _).mpr ⟨h.served, fun _ _ => ?_⟩
    rw [h.warm]
    decide
  · rw [List.append_nil]
    exact h.served

theorem Cold.step (h : Cold c.loop.backend) (hdue : c.Due json)
    (hs : (calling cli json lib).step c a = some c') :
    Cold c'.loop.backend ∧
      (WarmBeforeRun c'.made ↔ WarmBeforeRun c.made ∧ NotServed json c a c') := by
  cases calling_step_cases hs with
  | invoke hd hinvoked =>
    obtain ⟨msg, hp, hwants, hready⟩ := runDue_iff.mp hd
    have hcold : warmState c.loop.backend.2 = some false := by
      rw [h, hready]
      rfl
    refine ⟨h, iff_of_false (fun hw => ?_) fun hw => ?_⟩
    · exact ((warmBeforeRun_snoc _ _).mp hw).2 false rfl hcold
    · rw [hw.2 msg rfl hp hwants] at hready
      cases hready
  | @loop e w hdone hw =>
    have hno : NotServed json c (.loop e) ⟨w, c.invoked && decide (e ≠ .dispatch)⟩ := nofun
    rw [and_iff_left hno]
    rcases backend_of_step_traced hw with ⟨hne, hb⟩ | ⟨msg, rfl, hp, hb⟩
    · have hsame : (c.invoked && decide (e ≠ .dispatch)) = c.invoked := by simp [hne]
      rw [hsame]
      unfold Calling.made
      rw [hb]
      exact ⟨h, Iff.rfl⟩
    · obtain ⟨hcold, hserve⟩ : Cold (Worker.serve json lib c.loop.backend msg) ∧ _ := h.serve msg
      rw [← hb] at hcold hserve
      refine ⟨hcold, ?_⟩
      unfold Calling.made
      simp only [ne_eq, not_true_eq_false, decide_false, Bool.and_false, Bool.false_eq_true,
        if_false, List.append_nil]
      cases hd : runDue json c.loop with
      | true =>
        -- the run that was invoked has returned
        obtain ⟨msg', hp', hwants, hready⟩ := runDue_iff.mp hd
        cases hp.symm.trans hp'
        obtain ⟨ok, hrun⟩ := (callsOf_ready json lib msg hready).1 hwants
        rw [hdone (Or.inl rfl) hd, if_pos rfl, hb, Worker.serve, hrun]
        exact warmBeforeRun_run _ ok false
      | false =>
        have hinvoked : c.invoked = false := by
          by_contra hinvoked
          rw [hdue (Bool.of_not_eq_false hinvoked) (hp ▸ rfl)] at hd
          cases hd
        have hno : WantsInference json msg → c.loop.backend.1.manager.isReady = false := by
          intro hwants
          by_contra hready
          rw [runDue_iff.mpr ⟨msg, hp, hwants, Bool.of_not_eq_false hready⟩] at hd
          cases hd
        rw [hserve, hinvoked, if_neg Bool.false_ne_true, List.append_nil, and_iff_left hno]

/-- **When every model is warmed up before it serves.** In every run of the loop, a run of the backend
is only ever invoked on an interpreter that has been warmed up, exactly when the worker has a model
file, or never invokes a run for a request with a transferred model. -/
theorem warmed_iff {native : W} (hruns : 0 < cli.warmupRuns) (hboot : Boots cli lib native t)
    (h : (calling cli json lib).exec (.initial cli t) acts = some c) :
    WarmBeforeRun c.made ↔ cli.model.isSome = true ∨
      (calling cli json lib).Every (NotServed json) (.initial cli t) acts := by
  cases hmodel : cli.model with
  | some file =>
    obtain ⟨hready, hserved, hwarm⟩ := startup_some hruns hmodel hboot.2
    have hw : Warm c.loop.backend :=
      Machine.exec_invariant (I := fun c => Warm c.loop.backend) (fun _ _ _ hw hs => hw.step hs)
        (⟨hready, hwarm, hserved⟩ : Warm t) h
    exact iff_of_true hw.made (Or.inl rfl)
  | none =>
    obtain rfl := startup_none hmodel (selectBackend_isReady cli) hboot.2
    have hcold : Cold (⟨⟨selectBackend cli, native⟩, []⟩ : TfliteState W × List BackendCall) := by
      unfold Cold
      rw [selectBackend_isReady]
      rfl
    have hall := Machine.exec_iff_every (I := fun c => Cold c.loop.backend ∧ c.Due json)
      (P := fun c => WarmBeforeRun c.made) (R := NotServed json)
      (fun _ _ _ hI hs => ⟨(hI.1.step hI.2 hs).1, hI.2.step hs⟩)
      (fun _ _ _ hI hs => (hI.1.step hI.2 hs).2) ⟨hcold, fun hinvoked => by cases hinvoked⟩ h
    rw [hall]
    exact ⟨fun h => Or.inr h.2, fun h => ⟨warmBeforeRun_nil, h.resolve_left (by decide)⟩⟩

/-- A model is transferred, and a run is invoked for a first request. -/
def firstRequest (last : Event) : List CallEvent :=
  (exchange [transferHeader "ssd", [1]]).map .loop ++
    [.loop (.recv [[], [0, 0]]), .loop .start, .invoke, .loop last]

/-- A worker with three warmup runs serves it cold, whether the run returns or hangs until the process
watchdog ends the worker. -/
theorem transferred_model_served_cold :
    ∃ t, Boots cpuCli smallTflite () t ∧ ∀ last ∈ [Event.dispatch, .nativeTimeout],
      ∃ c, (calling cpuCli transferJson smallTflite).exec (.initial cpuCli t)
          (firstRequest last) = some c ∧ ¬ WarmBeforeRun c.made := by
  refine ⟨(⟨selectBackend cpuCli, ()⟩, []), ⟨rfl, rfl⟩, fun last hlast => ?_⟩
  have hrun : ∀ last ∈ [Event.dispatch, .nativeTimeout],
      ((calling cpuCli transferJson smallTflite).exec
        (.initial cpuCli (⟨selectBackend cpuCli, ()⟩, [])) (firstRequest last)).any
          (fun c => c.made = [.cacheModel true, .run false]) = true := by decide
  obtain ⟨c, hc, hmade⟩ := (Option.any_eq_true ..).mp (hrun last hlast)
  exact ⟨c, hc, fun h => h [.cacheModel true] false [] (of_decide_eq_true hmade) rfl⟩

/-- A model from a file is warmed up when it serves its first request. -/
theorem file_model_served_warm :
    ∃ t c, Boots fileCli smallTflite () t ∧
      (calling fileCli transferJson smallTflite).exec (.initial fileCli t)
        [.loop (.recv [[], [0, 0]]), .loop .start, .invoke] = some c ∧ c.invoked = true ∧
      WarmBeforeRun c.made := by
  let t := ((startup (tfliteBackend smallTflite).traced fileCli).run
    (⟨selectBackend fileCli, ()⟩, [])).2
  have hboot : Boots fileCli smallTflite () t := ⟨rfl, Prod.ext (by decide) rfl⟩
  have hrun : ((calling fileCli transferJson smallTflite).exec (.initial fileCli t)
      [.loop (.recv [[], [0, 0]]), .loop .start, .invoke]).any (fun c => c.invoked) = true := by
    decide
  obtain ⟨c, hc, hinvoked⟩ := (Option.any_eq_true ..).mp hrun
  exact ⟨t, c, hboot, hc, hinvoked, (warmed_iff (by decide) hboot hc).mpr (Or.inl rfl)⟩

end FrigateZmqDetector.Worker
