import FrigateZmqDetector.Worker.Replies

/-!
# Whether a failing backend counts as progress

The handler turns an error of the backend into an ordinary reply, and the loop looks only at
whether that reply was sent: a backend that fails on every request is a success on every request
as far as the progress watchdog can tell. `failing_backend_iff` says exactly when it is not: when
the replies to the failing requests are lost.
-/

namespace FrigateZmqDetector.Worker

open Lib Protocol Watchdog Tflite

variable {σ : Type} {cli : Cli} {json : SerdeJson} {b : DetectorBackend σ} {w w' : State σ}
  {events : List Event} {n : ℕ}

/-- The backend's inference fails on this request, dispatched in `s`. -/
def RunFailed (json : SerdeJson) (b : DetectorBackend σ) (msg : ZmqMessage) (s : σ) : Prop :=
  classifyMessage json msg = false ∧ b.isReady s = true ∧
    ∃ data, msg[1]? = some data ∧ ((b.run data).run s).1.isErr = true

/-- The update after a failing request counts a failure, and nothing else. -/
def CountedAsFailure (json : SerdeJson) (b : DetectorBackend σ) (w : State σ) (e : Event)
    (w' : State σ) : Prop :=
  ∀ msg before sendOk, e = .update → w.phase = .updating msg before sendOk →
    RunFailed json b msg before →
      w'.health.totalSuccesses = w.health.totalSuccesses ∧
        w'.health.lastSuccessMs = w.health.lastSuccessMs ∧
        w'.health.totalFailures = fetchAdd w.health.totalFailures

/-- The reply to a failing request is not sent successfully. -/
def ReplyLost (json : SerdeJson) (b : DetectorBackend σ) (w : State σ) (e : Event) (_ : State σ) :
    Prop :=
  ∀ msg before sendOk, e = .update → w.phase = .updating msg before sendOk →
    RunFailed json b msg before → sendOk = false

/-- The inference request answered for in this step is a failing one. -/
def RunFails (json : SerdeJson) (b : DetectorBackend σ) (w : State σ) (e : Event) (_ : State σ) :
    Prop :=
  ∀ msg before sendOk, e = .update → w.phase = .updating msg before sendOk →
    classifyMessage json msg = false → RunFailed json b msg before

/-- The first request is old enough for a check at `n` to see that there was no progress. -/
def FirstRequestOld (cli : Cli) (w : State σ) (n : ℕ) : Prop :=
  ∃ t, (starts w.calls).head? = some t ∧ t + 1 + 1000 * cli.maxNoProgressSecs ≤ n

/-- **A failing backend is no progress**, in this run: every failing request is counted as a
failure, and if all of them fail there is never a success and a check fires once the first request
is old. -/
structure NoProgress (cli : Cli) (json : SerdeJson) (b : DetectorBackend σ) (backend : σ)
    (events : List Event) : Prop where
  counted : (loop cli json b).Every (CountedAsFailure json b) (.initial cli backend) events
  noSuccess : (loop cli json b).Every (RunFails json b) (.initial cli backend) events →
    ∀ w, (loop cli json b).exec (.initial cli backend) events = some w →
      w.health.totalSuccesses = 0
  caught : (loop cli json b).Every (RunFails json b) (.initial cli backend) events →
    ∀ w, (loop cli json b).exec (.initial cli backend) events = some w →
      w.phase.isExited = false → ∀ n, FirstRequestOld cli w n → (w.health.check n).1.isSome = true

/-- What a check at `n` goes by when there has been no success: the limits are set, and neither
has the request counter wrapped to zero. -/
def Visible (cli : Cli) (calls : List Call) (n : ℕ) : Prop :=
  (0 < cli.maxLifetimeSecs ∧ 1000 * cli.maxLifetimeSecs ≤ n) ∨
    (0 < cli.maxNoProgressSecs ∧ (0 < (starts calls).length % 2 ^ 64 ∨
      ∃ t, openStart calls = some t ∧ t + 1 + 1000 * cli.maxNoProgressSecs ≤ n))

/-- The update of a failing request counts a failure exactly when its reply is lost. -/
theorem counted_iff_lost (e : Event) (hs : (loop cli json b).step w e = some w') :
    CountedAsFailure json b w e w' ↔ ReplyLost json b w e w' := by
  refine forall_congr' fun msg => forall_congr' fun before => forall_congr' fun sendOk =>
    forall_congr' fun he => forall_congr' fun hp => forall_congr' fun hfail => ?_
  subst he
  have hw : w.update json msg sendOk = w' := by
    simpa only [loop, hp, Option.some.injEq] using hs
  rw [← hw, State.update, if_neg (Bool.eq_false_iff.mp hfail.1)]
  cases sendOk with
  | false => exact ⟨fun _ => rfl, fun _ => ⟨rfl, rfl, rfl⟩⟩
  | true =>
    refine ⟨fun hcount => ?_, fun h => by cases h⟩
    have hsame : fetchAdd w.health.totalSuccesses = w.health.totalSuccesses := hcount.1
    unfold fetchAdd at hsame
    omega

theorem oks_eq_nil {backend : σ}
    (hlost : (loop cli json b).Every (ReplyLost json b) (.initial cli backend) events)
    (hfails : (loop cli json b).Every (RunFails json b) (.initial cli backend) events)
    (h : (loop cli json b).exec (.initial cli backend) events = some w) : oks w.calls = [] := by
  refine Machine.exec_invariant_of_every (I := fun w => oks w.calls = []) ?_ rfl
    (hlost.and hfails) h
  intro w e w' hw ⟨hl, hf⟩ hs
  rcases calls_of_step hs with hc | hc | ⟨msg, before, sendOk, he, hp, hclass, hc⟩
  · rw [hc, hw]
  · rw [hc, oks_snoc, hw]
    rfl
  · have hlostOk := hl msg before sendOk he hp (hf msg before sendOk he hp hclass)
    rw [hc, oks_snoc, hw, hlostOk]
    rfl

theorem check_isSome_iff_visible {calls : List Call} {t : ℕ} (hok : oks calls = [])
    (ht : (starts calls).head? = some t) (hage : t + 1 + 1000 * cli.maxNoProgressSecs ≤ n) :
    ((summaryOf cli calls).check n).1.isSome = true ↔ Visible cli calls n := by
  rw [ProgressWatchdog.check_of_not_fired rfl, HealthSnapshot.reason_isSome]
  unfold summaryOf
  rw [lifetimeReached_summary, noSuccess_summary, failureTimeout_summary, inFlightStuck_summary]
  constructor
  · rintro (hlife | ⟨⟨hN, hlen⟩, -⟩ | ⟨⟨hN, hlen⟩, -⟩ | ⟨hN, hopen⟩)
    · exact Or.inl hlife
    · exact Or.inr ⟨hN, Or.inl hlen⟩
    · exact Or.inr ⟨hN, Or.inl hlen⟩
    · exact Or.inr ⟨hN, Or.inr hopen⟩
  · rintro (hlife | ⟨hN, hlen | hopen⟩)
    · exact Or.inl hlife
    · exact Or.inr (Or.inl ⟨⟨hN, hlen⟩, hok, t, ht, hage⟩)
    · exact Or.inr (Or.inr (Or.inr ⟨hN, hopen⟩))

/-- **When a failing backend is no progress.** Exactly in the runs in which the reply to every
failing request is lost, and in which, if all requests fail, a check can see it at all. -/
theorem failing_backend_iff (cli : Cli) (json : SerdeJson) (b : DetectorBackend σ) (backend : σ)
    (events : List Event) :
    NoProgress cli json b backend events ↔
      (loop cli json b).Every (ReplyLost json b) (.initial cli backend) events ∧
        ((loop cli json b).Every (RunFails json b) (.initial cli backend) events →
          ∀ w, (loop cli json b).exec (.initial cli backend) events = some w →
            w.phase.isExited = false → ∀ n, FirstRequestOld cli w n → Visible cli w.calls n) := by
  have hcounted : (loop cli json b).Every (CountedAsFailure json b) (.initial cli backend) events ↔
      (loop cli json b).Every (ReplyLost json b) (.initial cli backend) events :=
    Machine.every_congr (I := fun _ => True) (fun _ _ _ _ _ => trivial)
      (fun _ e _ _ hs => counted_iff_lost e hs) trivial
  have hcheck : (loop cli json b).Every (ReplyLost json b) (.initial cli backend) events →
      (loop cli json b).Every (RunFails json b) (.initial cli backend) events →
      ∀ w, (loop cli json b).exec (.initial cli backend) events = some w →
        w.phase.isExited = false → ∀ n, FirstRequestOld cli w n →
          ((w.health.check n).1.isSome = true ↔ Visible cli w.calls n) := by
    rintro hlost hfails w h hrun n ⟨t, ht, hage⟩
    rw [(exec_healthInv h).health_eq hrun]
    exact check_isSome_iff_visible (oks_eq_nil hlost hfails h) ht hage
  constructor
  · intro hno
    have hlost := hcounted.mp hno.counted
    exact ⟨hlost, fun hfails w h hrun n hold =>
      (hcheck hlost hfails w h hrun n hold).mp (hno.caught hfails w h hrun n hold)⟩
  · rintro ⟨hlost, hvis⟩
    refine ⟨hcounted.mpr hlost, fun hfails w h => ?_, fun hfails w h hrun n hold =>
      (hcheck hlost hfails w h hrun n hold).mpr (hvis hfails w h hrun n hold)⟩
    rw [(exec_healthInv h).health]
    show (oks w.calls).length % 2 ^ 64 = 0
    rw [oks_eq_nil hlost hfails h]
    rfl

/-- The small library is about to be told that a request it failed on was a success. -/
def failureSent (w : State (TfliteState Unit)) : Bool :=
  match w.phase with
  | .updating [[], [0, 0]] before sendOk =>
    sendOk && (tfliteBackend smallTflite).isReady before &&
      (((tfliteBackend smallTflite).run [0, 0]).run before).1.isErr
  | _ => false

/-- A model is transferred, a request fails, and its reply is sent: a success. -/
theorem failing_backend_counted :
    ¬ NoProgress cpuCli transferJson (tfliteBackend smallTflite) smallState
      (exchange [transferHeader "ssd", [1]] ++ exchange [[], [0, 0]]) := by
  intro h
  have hrun : ((loop cpuCli transferJson (tfliteBackend smallTflite)).exec
      (.initial cpuCli smallState) (exchange [transferHeader "ssd", [1]] ++
        [.recv [[], [0, 0]], .start, .dispatch, .send .ok])).any failureSent = true := by decide
  obtain ⟨w, hw, hsent⟩ := (Option.any_eq_true ..).mp hrun
  unfold failureSent at hsent
  split at hsent
  · rename_i before sendOk hp
    rw [Bool.and_eq_true, Bool.and_eq_true] at hsent
    have hs : (loop cpuCli transferJson (tfliteBackend smallTflite)).step w .update =
        some (w.update transferJson [[], [0, 0]] sendOk) := by simp only [loop, hp]
    have hlast := h.counted.last hw hs
    have hlost := (counted_iff_lost .update hs).mp hlast _ _ _ rfl hp
      ⟨by decide, hsent.1.2, [0, 0], rfl, hsent.2⟩
    rw [hlost] at hsent
    exact absurd hsent.1.1 (by decide)
  · cases hsent

end FrigateZmqDetector.Worker
