import FrigateZmqDetector.Protocol.FirstModel
import FrigateZmqDetector.Worker.Health

/-!
# The progress counters of a worker

What the counters and stamps of the progress watchdog say in every state of every run of the
request loop: every request is a success, a failure or in flight (`accounting`), and only the
messages of inferences are requests.
-/

namespace FrigateZmqDetector.Worker

open Lib Protocol Tflite Watchdog

variable {σ : Type} {cli : Cli} {json : SerdeJson} {b : DetectorBackend σ} {w w' : State σ}
  {e : Event} {events : List Event} {cs : List Call} {isOpen : Bool}

/-! ### What a history in order says -/

/-- **Every request is answered once, or open.** -/
theorem length_starts (h : requestOrder.exec false cs = some isOpen) :
    (starts cs).length = (oks cs).length + (errs cs).length + isOpen.toNat := by
  induction cs using List.reverseRecOn generalizing isOpen with
  | nil =>
    cases h
    rfl
  | append_singleton cs c ih =>
    obtain ⟨o, ho, hc⟩ := Machine.exec_snoc.mp h
    have hlen := ih ho
    rw [starts_snoc, oks_snoc, errs_snoc]
    cases o <;> cases c <;> cases hc <;>
      simp only [Call.start?, Call.ok?, Call.err?, Option.toList, List.length_append,
        List.length_singleton, List.length_nil, Bool.toNat_true, Bool.toNat_false] at hlen ⊢ <;>
      omega

theorem openStart_isSome (h : requestOrder.exec false cs = some isOpen) :
    (openStart cs).isSome = isOpen := by
  induction cs using List.reverseRecOn with
  | nil =>
    cases h
    rfl
  | append_singleton cs c _ =>
    obtain ⟨o, -, hc⟩ := Machine.exec_snoc.mp h
    rw [openStart_snoc]
    cases o <;> cases c <;> cases hc <;> rfl

theorem stamp_ne_zero {o : Option ℕ} : stamp o ≠ 0 ↔ o.isSome = true := by
  cases o <;> simp [stamp]

theorem stamp_le {o : Option ℕ} {n : ℕ} (h : ∀ t, o = some t → t ≤ n) : stamp o ≤ n + 1 := by
  cases o with
  | none => exact Nat.zero_le _
  | some t => exact Nat.succ_le_succ (h t rfl)

/-! ### What one step does to the watchdog -/

/-- The message in hand. -/
def Phase.message? : Phase σ → Option ZmqMessage
  | .received msg | .dispatching msg | .sending msg _ _ | .updating msg _ _ => some msg
  | .receiving | .exited .. => none

theorem health_check (site : CheckSite) :
    (w.check site).health = { w.health with fired := (w.check site).health.fired } ∧
      ((w.check site).phase.isExited = false → w.phase.isExited = false) := by
  rcases w.check_cases site with ⟨-, hw⟩ | ⟨reason, -, hw⟩ <;> rw [hw]
  · exact ⟨rfl, fun hrun => hrun⟩
  · exact ⟨rfl, fun hrun => by cases hrun⟩

/-- **A step touches nothing but the flag, or makes one call for an inference request in hand.** A
worker that goes on after a success has not reached its number of requests. -/
theorem health_of_step (hs : (loop cli json b).step w e = some w') :
    (w'.health = { w.health with fired := w'.health.fired } ∧
        (w'.phase.isExited = false → w.phase.isExited = false)) ∨
      ∃ msg c, w.phase.message? = some msg ∧ classifyMessage json msg = false ∧
        w'.health = w.health.apply c ∧ w.phase.isExited = false ∧
        (w'.phase.isExited = false → ∀ t, c = .responseOk t → w.health.responseOkExit = none) := by
  cases step_cases hs with
  | tick ms hrun => exact Or.inl ⟨rfl, fun _ => hrun⟩
  | monitor => exact Or.inl (health_check _)
  | recv msg hp => exact Or.inl ⟨rfl, fun _ => hp ▸ rfl⟩
  | recvTimeout => exact Or.inl (health_check _)
  | recvError hp =>
    obtain ⟨hhealth, -⟩ := health_check (w := w.slept) .recvError
    exact Or.inl ⟨hhealth, fun _ => hp ▸ rfl⟩
  | @start msg hp =>
    unfold State.start
    split_ifs with hc
    · exact Or.inl ⟨rfl, fun _ => hp ▸ rfl⟩
    · exact Or.inr ⟨msg, .requestStart w.clock, hp ▸ rfl, Bool.eq_false_iff.mpr hc, rfl, hp ▸ rfl,
        fun _ t ht => by cases ht⟩
  | @dispatch msg hp =>
    rcases w.dispatched_cases json b msg with ⟨reply, -, hw⟩ | hw <;> rw [hw]
    · exact Or.inl ⟨rfl, fun _ => hp ▸ rfl⟩
    · exact Or.inl ⟨rfl, fun hrun => by cases hrun⟩
  | nativeTimeout => exact Or.inl ⟨rfl, fun hrun => by cases hrun⟩
  | send outcome hp => exact Or.inl ⟨rfl, fun _ => hp ▸ rfl⟩
  | @update msg before sendOk hp =>
    unfold State.update
    split_ifs with hc hok
    · exact Or.inl ⟨rfl, fun _ => hp ▸ rfl⟩
    · refine Or.inr ⟨msg, .responseOk w.clock, hp ▸ rfl, Bool.eq_false_iff.mpr hc, rfl, hp ▸ rfl,
        fun hrun _ _ => ?_⟩
      cases hexit : w.health.responseOkExit with
      | none => rfl
      | some code =>
        simp only [hexit] at hrun
        cases hrun
    · exact Or.inr ⟨msg, .responseErr w.clock, hp ▸ rfl, Bool.eq_false_iff.mpr hc, rfl, hp ▸ rfl,
        fun _ t ht => by cases ht⟩

/-! ### The first stamp, and the number of requests -/

theorem apply_firstRequestMs {health : ProgressWatchdog} (h : health.firstRequestMs ≠ 0) (c : Call) :
    (health.apply c).firstRequestMs = health.firstRequestMs := by
  cases c with
  | requestStart t => exact if_neg h
  | responseOk t => rfl
  | responseErr t => rfl

/-- **The first stamp stays.** -/
theorem exec_firstRequestMs (hset : w.health.firstRequestMs ≠ 0)
    (h : (loop cli json b).exec w events = some w') :
    w'.health.firstRequestMs = w.health.firstRequestMs := by
  refine Machine.exec_invariant
    (I := fun v => v.health.firstRequestMs = w.health.firstRequestMs) ?_ rfl h
  intro v e v' hv hs
  rcases health_of_step hs with ⟨hhealth, -⟩ | ⟨msg, c, -, -, hhealth, -⟩
  · rw [hhealth]
    exact hv
  · rw [hhealth, apply_firstRequestMs (hv ▸ hset), hv]

/-- A worker that goes on has not had its number of successes. -/
def BelowMax (w : State σ) : Prop :=
  w.phase.isExited = false → 0 < w.health.maxRequests →
    w.health.totalSuccesses < w.health.maxRequests

theorem BelowMax.step (h : BelowMax w) (hs : (loop cli json b).step w e = some w') :
    BelowMax w' := by
  intro hrun' hmax
  rcases health_of_step hs with ⟨hhealth, hrun⟩ | ⟨msg, c, -, -, hhealth, hrun, hexit⟩
  · rw [hhealth] at hmax ⊢
    exact h (hrun hrun') hmax
  · rw [hhealth] at hmax ⊢
    cases c with
    | requestStart t => exact h hrun hmax
    | responseErr t => exact h hrun hmax
    | responseOk t =>
      have hbelow := ProgressWatchdog.responseOkExit_eq_none.mp (hexit hrun' t rfl)
      exact Nat.lt_of_not_le fun hle => hbelow ⟨hmax, hle⟩

theorem exec_belowMax {backend : σ}
    (h : (loop cli json b).exec (.initial cli backend) events = some w) : BelowMax w := by
  have hinitial : BelowMax (.initial cli backend : State σ) := fun _ hpos => hpos
  exact Machine.exec_invariant (fun _ _ _ hI hs => BelowMax.step hI hs) hinitial h

/-! ### The accounts -/

/-- An inference request is being handled. A process that has exited keeps the one it had. -/
def State.handling (json : SerdeJson) (w : State σ) : Bool :=
  if w.phase.isExited then (openStart w.calls).isSome else w.phase.inFlight json

/-- **What the counters and the stamps say of the requests.** -/
structure Accounted (json : SerdeJson) (w : State σ) : Prop where
  total : w.health.totalRequests =
    w.health.totalSuccesses + w.health.totalFailures + (w.handling json).toNat
  inFlight : w.health.inFlightStartMs ≠ 0 ↔ w.handling json = true
  first : w.health.firstRequestMs ≠ 0 ↔ 0 < w.health.totalRequests
  success : w.health.lastSuccessMs ≠ 0 ↔ 0 < w.health.totalSuccesses
  failure : w.health.lastFailureMs ≠ 0 ↔ 0 < w.health.totalFailures
  stamps : w.health.firstRequestMs ≤ w.clock + 1 ∧ w.health.lastSuccessMs ≤ w.clock + 1 ∧
    w.health.lastFailureMs ≤ w.clock + 1 ∧ w.health.inFlightStartMs ≤ w.clock + 1

theorem HealthInv.handling_eq (h : HealthInv cli json w) :
    w.handling json = (openStart w.calls).isSome := by
  obtain ⟨o, ho, hopen⟩ := h.ordered
  unfold State.handling
  split_ifs with hexit
  · rfl
  · rw [openStart_isSome ho, hopen (Bool.eq_false_iff.mpr hexit)]

theorem HealthInv.stamps_eq (h : HealthInv cli json w) :
    w.health.firstRequestMs = stamp (starts w.calls).head? ∧
      w.health.lastSuccessMs = stamp (oks w.calls).getLast? ∧
      w.health.lastFailureMs = stamp (errs w.calls).getLast? ∧
      w.health.inFlightStartMs = stamp (openStart w.calls) := by
  rw [h.health]
  exact ⟨rfl, rfl, rfl, rfl⟩

/-- None of the counters has wrapped. -/
theorem HealthInv.counts_eq (h : HealthInv cli json w)
    (hcount : (starts w.calls).length < 2 ^ 64) :
    w.health.totalRequests = (starts w.calls).length ∧
      w.health.totalSuccesses = (oks w.calls).length ∧
      w.health.totalFailures = (errs w.calls).length := by
  obtain ⟨o, ho, -⟩ := h.ordered
  have hlen := length_starts ho
  rw [h.health]
  exact ⟨Nat.mod_eq_of_lt hcount, Nat.mod_eq_of_lt (by omega), Nat.mod_eq_of_lt (by omega)⟩

theorem stamp_getLast?_ne_zero {l : List ℕ} : stamp l.getLast? ≠ 0 ↔ 0 < l.length := by
  rw [stamp_ne_zero, List.getLast?_isSome, List.length_pos_iff]

theorem stamp_head?_ne_zero {l : List ℕ} : stamp l.head? ≠ 0 ↔ 0 < l.length := by
  cases l <;> simp

theorem HealthInv.accounted (h : HealthInv cli json w)
    (hcount : (starts w.calls).length < 2 ^ 64) : Accounted json w := by
  obtain ⟨o, ho, -⟩ := h.ordered
  obtain ⟨hfirst, hsuccess, hfailure, hopen⟩ := h.stamps_eq
  obtain ⟨hstarts, hoks, herrs⟩ := h.counts_eq hcount
  refine ⟨?_, ?_, ?_, ?_, ?_, ?_, ?_, ?_, ?_⟩
  · rw [hstarts, hoks, herrs, h.handling_eq, openStart_isSome ho, length_starts ho]
  · rw [hopen, h.handling_eq, stamp_ne_zero]
  · rw [hfirst, hstarts, stamp_head?_ne_zero]
  · rw [hsuccess, hoks, stamp_getLast?_ne_zero]
  · rw [hfailure, herrs, stamp_getLast?_ne_zero]
  -- the stamps come from calls, and no call is later than the clock
  · rw [hfirst]
    exact stamp_le fun t ht => h.bounded _ (mem_starts.mp (List.mem_of_head? ht))
  · rw [hsuccess]
    exact stamp_le fun t ht => h.bounded _ (mem_oks.mp (List.mem_of_getLast? ht))
  · rw [hfailure]
    exact stamp_le fun t ht => h.bounded _ (mem_errs.mp (List.mem_of_getLast? ht))
  · rw [hopen]
    exact stamp_le fun t ht => h.bounded _ (List.mem_of_getLast? (mem_openStart.mp ht))

/-- **The counters account for every request**, in every state of every run; the first stamp stays
for good; a step with no inference request in hand leaves the counters and the stamps alone; and a
worker with a number of requests to serve goes on only below it. -/
theorem accounting {backend : σ}
    (h : (loop cli json b).exec (.initial cli backend) events = some w)
    (hcount : (starts w.calls).length < 2 ^ 64) :
    Accounted json w ∧
    (∀ events' w', (loop cli json b).exec w events' = some w' → w.health.firstRequestMs ≠ 0 →
      w'.health.firstRequestMs = w.health.firstRequestMs) ∧
    (∀ e w', (loop cli json b).step w e = some w' →
      (∀ msg, w.phase.message? = some msg → classifyMessage json msg = true) →
      w'.health = { w.health with fired := w'.health.fired }) ∧
    (w.phase.isExited = false → 0 < cli.maxRequests →
      w.health.totalSuccesses < cli.maxRequests) := by
  have hinv := exec_healthInv h
  refine ⟨hinv.accounted hcount, fun events' w' h' hset => exec_firstRequestMs hset h',
    fun e w' hs hmgmt => ?_, fun hrun hmax => ?_⟩
  · rcases health_of_step hs with ⟨hhealth, -⟩ | ⟨msg, c, hmsg, hclass, -⟩
    · exact hhealth
    · rw [hmgmt msg hmsg] at hclass
      cases hclass
  · have hmaxEq : w.health.maxRequests = cli.maxRequests := by
      rw [hinv.health]
      rfl
    rw [← hmaxEq] at hmax ⊢
    exact exec_belowMax h hrun hmax

/-- A worker that has had a management message and a success, and has lost a reply, while the third
request is being handled. -/
theorem accounting_run :
    let events : List Event := [.recv [transferHeader "ssd", [1]], .start, .dispatch, .send .ok,
      .update, .recv [[], [1, 2]], .start, .tick 5, .dispatch, .send .ok, .update, .recv [[], [1]],
      .start, .dispatch, .send .timedOut, .update, .recv [[], [1]], .start]
    ∃ w, (loop cpuCli transferJson (tfliteBackend smallTflite)).exec
        (.initial cpuCli smallState) events = some w ∧
      w.health.totalRequests = 3 ∧ w.health.totalRequests = w.health.totalSuccesses +
        w.health.totalFailures + (w.handling transferJson).toNat := by
  intro events
  have hrun : ((loop cpuCli transferJson (tfliteBackend smallTflite)).exec
      (.initial cpuCli smallState) events).any (fun w => w.health.totalRequests = 3 ∧
        (starts w.calls).length < 2 ^ 64) = true := by decide
  obtain ⟨w, hw, htest⟩ := (Option.any_eq_true ..).mp hrun
  obtain ⟨htotal, hcount⟩ := of_decide_eq_true htest
  exact ⟨w, hw, htotal, (accounting hw hcount).1.total⟩

end FrigateZmqDetector.Worker
