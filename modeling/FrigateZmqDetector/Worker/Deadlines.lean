import FrigateZmqDetector.Worker.Accounting
import FrigateZmqDetector.Worker.System

/-!
# The deadlines of a worker

The limits of the command line, in terms of the clock. The monitor checks every five seconds
whatever the loop is doing, and the thread of the process watchdog waits for the native call, so a
worker goes past a limit by no more than the time between two checks and the time the two are kept
waiting (`system_deadlines`). The invariant is that no check dated five seconds before the next one
would have found a reason in what the progress watchdog holds now: a call that the loop makes later
brings stamps that are younger than that.
-/

namespace FrigateZmqDetector.Watchdog

open Lib HealthSnapshot

variable {w : ProgressWatchdog} {n n' : ℕ}

theorem ageSecs_mono (h : n ≤ n') (word : ℕ) : ageSecs n word ≤ ageSecs n' word :=
  Nat.div_le_div_right (Nat.sub_le_sub_right h word)

theorem ageSecs_eq_zero {word : ℕ} (h : n ≤ word) : ageSecs n word = 0 := by
  rw [ageSecs, Nat.sub_eq_zero_of_le h, Nat.zero_div]

namespace ProgressWatchdog

/-- A check at this time would find nothing. -/
def Healthy (w : ProgressWatchdog) (n : ℕ) : Prop := (w.snapshot n).reason w = none

theorem healthy_iff : w.Healthy n ↔ ¬ LifetimeReached w (w.snapshot n) ∧
    ¬ NoSuccess w (w.snapshot n) ∧ ¬ FailureTimeout w (w.snapshot n) ∧
    ¬ InFlightStuck w (w.snapshot n) := by
  rw [Healthy, ← Option.not_isSome_iff_eq_none, reason_isSome]
  simp only [not_or]

/-- **A reason stays.** What a check would find it would find later too. -/
theorem Healthy.of_le (h : w.Healthy n') (hle : n ≤ n') : w.Healthy n := by
  rw [healthy_iff] at h ⊢
  obtain ⟨hlife, hsuccess, hfailure, hstuck⟩ := h
  refine ⟨fun hl => hlife ?_, fun hs => hsuccess ?_, fun hf => hfailure ?_, fun hi => hstuck ?_⟩
  · exact ⟨hl.1, hl.2.trans (Nat.div_le_div_right hle)⟩
  · exact ⟨hs.1, hs.2.1, hs.2.2.trans (ageSecs_mono hle _)⟩
  · exact ⟨hf.1, hf.2.1, hf.2.2.trans (ageSecs_mono hle _)⟩
  · exact ⟨hi.1, hi.2.trans (ageSecs_mono hle _)⟩

/-- **A call brings no reason that is older than it.** -/
theorem Healthy.apply (h : w.Healthy n) {c : Call} (hc : n ≤ c.time)
    (hfirst : w.firstRequestMs ≠ 0 → 0 < w.totalRequests)
    (hfailure : w.lastFailureMs ≠ 0 → 0 < w.totalRequests)
    (hbound : w.lastFailureMs ≤ c.time + 1) : (w.apply c).Healthy n := by
  rw [healthy_iff] at h ⊢
  obtain ⟨hlife, hnone, hfail, hstuck⟩ := h
  have hfresh : ¬ (0 < w.maxNoProgressSecs ∧ w.maxNoProgressSecs ≤ ageSecs n (c.time + 1)) := by
    rw [ageSecs_eq_zero (Nat.le_succ_of_le hc)]
    omega
  refine ⟨?_, ?_, ?_, ?_⟩
  · cases c <;> exact hlife
  · rintro ⟨⟨hN, hreq⟩, hok, hage⟩
    cases c with
    | requestStart t =>
      by_cases hzero : w.firstRequestMs = 0
      · simp only [snapshot, ProgressWatchdog.apply, requestStart, compareExchange, hzero,
          if_true] at hage
        exact hfresh ⟨hN, hage⟩
      · simp only [snapshot, ProgressWatchdog.apply, requestStart, compareExchange, hzero,
          if_false] at hage
        exact hnone ⟨⟨hN, hfirst hzero⟩, hok, hage⟩
    | responseOk t => exact absurd hok (Nat.succ_ne_zero t)
    | responseErr t => exact hnone ⟨⟨hN, hreq⟩, hok, hage⟩
  · rintro ⟨⟨hN, hreq⟩, hlt, hage⟩
    cases c with
    | requestStart t =>
      exact hfail ⟨⟨hN, hfailure (Nat.ne_zero_of_lt hlt)⟩, hlt, hage⟩
    | responseOk t => exact absurd hlt (Nat.not_lt.mpr hbound)
    | responseErr t => exact hfresh ⟨hN, hage⟩
  · rintro ⟨⟨hN, hopen⟩, hage⟩
    cases c with
    | requestStart t => exact hfresh ⟨hN, hage⟩
    | responseOk t | responseErr t => exact absurd hopen (Nat.lt_irrefl 0)

theorem healthy_of_disabled (h : w.isEnabled = false) (n : ℕ) : w.Healthy n := by
  simp only [isEnabled, Bool.or_eq_false_iff, decide_eq_false_iff_not] at h
  obtain ⟨⟨hN, -⟩, hL⟩ := h
  rw [healthy_iff]
  exact ⟨fun hl => hL hl.1, fun hs => hN hs.1.1, fun hf => hN hf.1.1, fun hi => hN hi.1.1⟩

theorem healthy_zero (w : ProgressWatchdog) : w.Healthy 0 := by
  have hage : ∀ word, 0 < w.maxNoProgressSecs →
      ¬ w.maxNoProgressSecs ≤ ageSecs (w.snapshot 0).nowMs word := by
    intro word hN hle
    have hzero : ageSecs (w.snapshot 0).nowMs word = 0 := ageSecs_eq_zero (Nat.zero_le _)
    omega
  rw [healthy_iff]
  exact ⟨fun hl => Nat.not_le.mpr hl.1 (hl.2.trans (Nat.zero_div 1000).le), fun hs => hage _ hs.1.1 hs.2.2,
    fun hf => hage _ hf.1.1 hf.2.2, fun hi => hage _ hi.1.1 hi.2⟩

end ProgressWatchdog

end FrigateZmqDetector.Watchdog

namespace FrigateZmqDetector.Worker

open Lib Protocol Tflite Watchdog

variable {σ : Type} {cli : Cli} {json : SerdeJson} {b : DetectorBackend σ} {s s' : System σ}
  {a : SystemAct} {acts : List SystemAct} {w w' : State σ} {e : Event} {late : ℕ}

/-- **What a step of a worker that goes on does to the progress watchdog**: nothing, or a call. -/
theorem health_of_running (h : HealthInv cli json w) (hrun : w.phase.isExited = false)
    (hs : (loop cli json b).step w e = some w') (hrun' : w'.phase.isExited = false) :
    (w'.health = w.health ∧ w'.calls = w.calls) ∨
      ∃ c, c.time = w.clock ∧ w'.health = w.health.apply c ∧ w'.calls = w.calls ++ [c] := by
  have hold := h.health_eq hrun
  have hnew := (h.step hs).health_eq hrun'
  have hcall : ∀ c, w'.calls = w.calls ++ [c] → w'.health = w.health.apply c := by
    intro c hc
    rw [hnew, hold, hc]
    exact (summary_snoc c).symm
  rcases calls_of_step hs with hsame | hstart | ⟨msg, before, sendOk, -, -, -, hresponse⟩
  · refine Or.inl ⟨?_, hsame⟩
    rw [hnew, hold, hsame]
  · exact Or.inr ⟨_, rfl, hcall _ hstart, hstart⟩
  · refine Or.inr ⟨responseCall sendOk w.clock, ?_, hcall _ hresponse, hresponse⟩
    cases sendOk <;> rfl

/-- The steps of a worker keep what is known of its progress watchdog. -/
theorem HealthInv.system_step (h : HealthInv cli json s.loop)
    (hs : (system cli json b).step s a = some s') : HealthInv cli json s'.loop := by
  obtain ⟨hrun, hstep⟩ := system_step_cases hs
  cases hstep with
  | tick ms => exact h.quiet rfl (Nat.le_add_right _ _) rfl fun _ => ⟨hrun, rfl, rfl⟩
  | loop _ _ hw => exact h.step hw
  | recvError => exact h.quiet rfl le_rfl rfl fun _ => ⟨hrun, rfl, rfl⟩
  | awake => exact h.check _
  | arm | disarm => exact h
  | dispatch _ _ hw => exact h.step hw
  | monitor =>
    unfold System.monitor
    split
    · exact h
    · split_ifs
      · exact h.check _
      · exact h
  | thread | wakeup =>
    unfold System.watched
    split_ifs
    · exact h.quiet rfl le_rfl rfl fun hrun' => by cases hrun'
    · exact h

/-- The steps of a worker keep the thread of the process watchdog in time. -/
theorem timely_system_step (h : Timely late s.guarded) (hinv : GuardedInv s.guarded)
    (hp : s.guarded.Punctual late) (hs : (system cli json b).step s a = some s') :
    Timely late s'.guarded := by
  rcases guarded_of_system_step hs with hsame | ⟨act, hg⟩
  · exact hsame ▸ h
  · exact h.step hinv hp hg

/-! ### The invariant -/

/-- Neither the monitor nor the thread of the process watchdog is kept waiting for longer than
`late`. -/
def System.Punctual (late : ℕ) (s : System σ) : Prop :=
  s.guarded.Punctual late ∧ s.loop.clock ≤ s.nextCheck.getD 0 + late

instance (late : ℕ) : DecidablePred (System.Punctual (σ := σ) late) := fun s => by
  unfold System.Punctual
  infer_instance

/-- **What holds of a worker whose watchdogs are punctual.** -/
structure DeadlineInv (late : ℕ) (cli : Cli) (json : SerdeJson) (b : DetectorBackend σ)
    (s : System σ) : Prop where
  coupled : Coupled cli json b s
  health : HealthInv cli json s.loop
  timely : Timely late s.guarded
  schedule : ∀ due, s.nextCheck = some due → due ≤ s.loop.clock + watchdogCheckIntervalMs
  /-- A check would have found nothing in what is known now. -/
  checked : s.loop.phase.isExited = false → (starts s.loop.calls).length < 2 ^ 64 →
    ∀ due, s.nextCheck = some due →
      s.loop.health.Healthy (due - (watchdogCheckIntervalMs + late))

namespace DeadlineInv

theorem initial (backend : σ) (g : Idle) :
    DeadlineInv late cli json b (.initial cli backend g) where
  coupled := .initial backend g
  health := .initial backend
  timely := g.timely late
  schedule _ h := by cases h
  checked _ _ _ h := by cases h

variable (h : DeadlineInv late cli json b s)
include h

/-- A step with no check and no call. -/
theorem quiet (hcoupled : Coupled cli json b s') (hhealth : HealthInv cli json s'.loop)
    (htimely : Timely late s'.guarded) (hnext : s'.nextCheck = s.nextCheck)
    (hclock : s.loop.clock ≤ s'.loop.clock)
    (hsame : s'.loop.phase.isExited = false → s.loop.phase.isExited = false ∧
      s'.loop.health = s.loop.health ∧ s'.loop.calls = s.loop.calls) :
    DeadlineInv late cli json b s' := by
  refine ⟨hcoupled, hhealth, htimely, fun due hdue => ?_, fun hrun' hcount due hdue => ?_⟩
  · exact (h.schedule due (hnext ▸ hdue)).trans (Nat.add_le_add_right hclock _)
  · obtain ⟨hrun, hh, hc⟩ := hsame hrun'
    rw [hc] at hcount
    rw [hh]
    exact h.checked hrun hcount due (hnext ▸ hdue)

/-- A step of the loop: a call is younger than the check that is asked about. -/
theorem loop {returned : Bool} (hrun : s.loop.phase.isExited = false)
    (hs : (loop cli json b).step s.loop e = some w) (hclock : w.clock = s.loop.clock)
    (hcoupled : Coupled cli json b { s with loop := w, returned := returned }) :
    DeadlineInv late cli json b { s with loop := w, returned := returned } := by
  have hhealth := h.health.step hs
  refine ⟨hcoupled, hhealth, h.timely, fun due hdue => ?_, fun hrun' hcount due hdue => ?_⟩
  · exact hclock ▸ h.schedule due hdue
  have hdate : due - (watchdogCheckIntervalMs + late) ≤ s.loop.clock := by
    have := h.schedule due hdue
    omega
  change w.health.Healthy _
  rcases health_of_running h.health hrun hs hrun' with ⟨hsame, hcalls⟩ | ⟨c, htime, happly, hcalls⟩
  · rw [hsame]
    exact h.checked hrun (hcalls ▸ hcount) due hdue
  · have hfew : (starts s.loop.calls).length < 2 ^ 64 := by
      simp only [hcalls, starts_snoc, List.length_append] at hcount
      omega
    obtain ⟨htotal, -, hfirst, -, hfailure, -, -, hbound, -⟩ := h.health.accounted hfew
    rw [happly]
    refine (h.checked hrun hfew due hdue).apply (htime ▸ hdate) hfirst.mp (fun hne => ?_) ?_
    · have := hfailure.mp hne
      omega
    · rw [htime]
      exact hbound

/-- The tick of the monitor: what it finds nothing in is healthy until its next one. -/
theorem monitor (hrun : s.loop.phase.isExited = false) (hp : s.Punctual late)
    (hdue : ∀ due, s.nextCheck = some due → due ≤ s.loop.clock) :
    (∀ due, s.monitor.nextCheck = some due →
      due ≤ s.monitor.loop.clock + watchdogCheckIntervalMs) ∧
    (s.monitor.loop.phase.isExited = false → ∀ due, s.monitor.nextCheck = some due →
      s.monitor.loop.health.Healthy (due - (watchdogCheckIntervalMs + late))) := by
  unfold System.monitor
  cases hnext : s.nextCheck with
  | none =>
    have hearly : s.loop.clock ≤ late := by
      have := hp.2
      rw [hnext] at this
      exact this.trans (Nat.zero_add late).le
    refine ⟨fun due hd => ?_, fun _ due hd => ?_⟩
    · cases hd
      exact le_rfl
    · cases hd
      rw [show s.loop.clock + watchdogCheckIntervalMs - (watchdogCheckIntervalMs + late) = 0 by
        omega]
      exact ProgressWatchdog.healthy_zero _
  | some now =>
    have hnow := hdue now hnext
    have hlater : now + watchdogCheckIntervalMs - (watchdogCheckIntervalMs + late) ≤
        s.loop.clock := by omega
    simp only
    split_ifs with henabled
    · rcases s.loop.check_cases .monitor with ⟨hnone, hw⟩ | ⟨reason, -, hw⟩ <;> rw [hw]
      · refine ⟨fun due hd => ?_, fun _ due hd => ?_⟩ <;> cases hd
        · exact Nat.add_le_add_right hnow _
        · rw [ProgressWatchdog.check_of_not_fired (h.health.notFired hrun)] at hnone
          exact ProgressWatchdog.Healthy.of_le hnone hlater
      · refine ⟨fun due hd => ?_, fun hrun' => by cases hrun'⟩
        cases hd
        exact Nat.add_le_add_right hnow _
    · refine ⟨fun due hd => ?_, fun _ due hd => ?_⟩ <;> cases hd
      · exact Nat.add_le_add_right hnow _
      · exact ProgressWatchdog.healthy_of_disabled (Bool.eq_false_iff.mpr henabled) _

/-- **Every step of a punctual worker keeps the invariant.** -/
theorem step (hp : s.Punctual late) (hs : (system cli json b).step s a = some s') :
    DeadlineInv late cli json b s' := by
  have hcoupled := h.coupled.step hs
  have hhealth := h.health.system_step hs
  have htimely := timely_system_step h.timely h.coupled.guardedInv hp.1 hs
  obtain ⟨hrun, hstep⟩ := system_step_cases hs
  cases hstep with
  | tick ms =>
    exact h.quiet hcoupled hhealth htimely rfl (Nat.le_add_right _ _) fun _ => ⟨hrun, rfl, rfl⟩
  | loop _ hown hw => exact h.loop hrun hw (own_spec hown hw).1 hcoupled
  | recvError | arm | disarm =>
    exact h.quiet hcoupled hhealth htimely rfl le_rfl fun _ => ⟨hrun, rfl, rfl⟩
  | awake =>
    refine h.quiet hcoupled hhealth htimely rfl (State.check_clock ..).ge fun hrun' => ?_
    change (s.loop.check .recvError).phase.isExited = false at hrun'
    exact ⟨hrun, congrArg State.health (State.check_of_running hrun'), State.check_calls ..⟩
  | dispatch _ _ hw => exact h.loop hrun hw (clock_of_dispatch hw) hcoupled
  | monitor hdue =>
    obtain ⟨hschedule, hchecked⟩ := h.monitor hrun hp hdue
    exact ⟨hcoupled, hhealth, htimely, hschedule, fun hrun' _ => hchecked hrun'⟩
  | thread | wakeup =>
    refine h.quiet hcoupled hhealth htimely rfl (System.watched_clock ..).ge fun hrun' => ?_
    rw [System.watched_of_running hrun']
    exact ⟨hrun, rfl, rfl⟩

/-- A guarded call is not far behind its timeout. -/
theorem call_le (hp : s.Punctual late) {i : ℕ} {c : GuardedCall} (hi : s.guarded.guard = some i)
    (hc : s.guarded.process.calls[i]? = some c) :
    s.guarded.process.clock ≤ c.armedAt + cli.inferenceTimeoutMs + 2 * late := by
  have hcurrent : s.guarded.current = some c := by
    rw [Guarded.current, hi, Option.bind_some, hc]
  have harmed : s.guarded.process.state.armed = some c.armed := by
    rw [h.coupled.guardedInv.armed, hcurrent, Option.map_some]
  have hle := (h.timely.onTime _ harmed).clock_le hp.1
  rw [← h.coupled.timeout c hcurrent]
  exact hle

/-- A limit that no healthy date reaches is not far behind a worker that is running. -/
theorem clock_lt (hp : s.Punctual late) (hrun : s.loop.phase.isExited = false)
    (hcount : (starts s.loop.calls).length < 2 ^ 64) (limit : ℕ)
    (hlimit : ∀ n, s.loop.health.Healthy n → n < limit) :
    s.loop.clock < limit + (5000 + 2 * late) := by
  have hclock := hp.2
  cases hnext : s.nextCheck with
  | none =>
    rw [hnext, Option.getD_none] at hclock
    omega
  | some due =>
    have hdate := hlimit _ (h.checked hrun hcount due hnext)
    rw [hnext, Option.getD_some] at hclock
    unfold watchdogCheckIntervalMs at hdate
    omega

/-- Nor is a request that is being handled. -/
theorem inFlight_lt (hp : s.Punctual late) (hrun : s.loop.phase.isExited = false)
    (hcount : (starts s.loop.calls).length < 2 ^ 64) (hN : 0 < cli.maxNoProgressSecs) {t : ℕ}
    (ht : openStart s.loop.calls = some t) :
    s.loop.clock < t + 1 + 1000 * cli.maxNoProgressSecs + (5000 + 2 * late) := by
  refine h.clock_lt hp hrun hcount _ fun n hn => ?_
  rw [h.health.health_eq hrun, ProgressWatchdog.healthy_iff] at hn
  by_contra hle
  exact hn.2.2.2 (inFlightStuck_summary.mpr ⟨hN, t, ht, Nat.le_of_not_lt hle⟩)

end DeadlineInv

/-- **No limit that is set is missed for long.** In a run in which neither watchdog is kept waiting for
longer than `late`, a worker that is still running is within twice that of the timeout of its native
call, and in its first `2 ^ 64` requests within five seconds and twice that of every other limit: its
lifetime, the age of the request it is handling, the first request while there is no success, and the
last failure when every success was in an earlier millisecond. -/
theorem system_deadlines {backend : σ} {g : Idle}
    (hp : (system cli json b).Always (System.Punctual late) (.initial cli backend g) acts)
    (h : (system cli json b).exec (.initial cli backend g) acts = some s)
    (hrun : s.loop.phase.isExited = false) :
    (∀ i c, s.guarded.guard = some i → s.guarded.process.calls[i]? = some c →
      s.guarded.process.clock ≤ c.armedAt + cli.inferenceTimeoutMs + 2 * late) ∧
    ((starts s.loop.calls).length < 2 ^ 64 →
      (0 < cli.maxLifetimeSecs →
        s.loop.clock < 1000 * cli.maxLifetimeSecs + (5000 + 2 * late)) ∧
      (0 < cli.maxNoProgressSecs →
        (∀ t, openStart s.loop.calls = some t →
          s.loop.clock < t + 1 + 1000 * cli.maxNoProgressSecs + (5000 + 2 * late)) ∧
        (∀ t, (starts s.loop.calls).head? = some t → oks s.loop.calls = [] →
          s.loop.clock < t + 1 + 1000 * cli.maxNoProgressSecs + (5000 + 2 * late)) ∧
        ∀ t, (errs s.loop.calls).getLast? = some t →
          (∀ r, (oks s.loop.calls).getLast? = some r → r < t) →
          s.loop.clock < t + 1 + 1000 * cli.maxNoProgressSecs + (5000 + 2 * late))) := by
  obtain ⟨hinv, hpunctual⟩ := Machine.exec_invariant_of_always
    (I := DeadlineInv late cli json b) (fun _ _ _ hI hp _ hs => hI.step hp hs)
    (.initial backend g) hp h
  refine ⟨fun i c hi hc => hinv.call_le hpunctual hi hc, fun hcount => ?_⟩
  have hlimit := hinv.clock_lt hpunctual hrun hcount
  have heq := hinv.health.health_eq hrun
  have hreq : ∀ {n : ℕ}, 0 < n → n ≤ (starts s.loop.calls).length →
      0 < (starts s.loop.calls).length % 2 ^ 64 := fun hpos hle => by
    rw [Nat.mod_eq_of_lt hcount]
    omega
  rw [heq] at hlimit
  refine ⟨fun hL => hlimit _ fun n hn => ?_,
    fun hN => ⟨fun t ht => hinv.inFlight_lt hpunctual hrun hcount hN ht,
    fun t ht hok => hlimit _ fun n hn => ?_, fun t ht hok => hlimit _ fun n hn => ?_⟩⟩ <;>
    rw [ProgressWatchdog.healthy_iff] at hn <;> obtain ⟨hlife, hnone, hfail, -⟩ := hn <;>
    by_contra hle
  · exact hlife (lifetimeReached_summary.mpr ⟨hL, Nat.le_of_not_lt hle⟩)
  · have hpos := List.length_pos_of_mem (List.mem_of_head? ht)
    exact hnone (noSuccess_summary.mpr ⟨⟨hN, hreq hpos le_rfl⟩, hok, t, ht, Nat.le_of_not_lt hle⟩)
  · obtain ⟨o, ho, -⟩ := hinv.health.ordered
    have hlen := length_starts ho
    have hpos := List.length_pos_of_mem (List.mem_of_getLast? ht)
    exact hfail (failureTimeout_summary.mpr
      ⟨⟨hN, hreq hpos (by omega)⟩, t, ht, hok, Nat.le_of_not_lt hle⟩)

/-- The worker whose inference hangs, 1000 late for its first check. -/
theorem system_deadlines_hung :
    ∃ s, (system cpuCli transferJson (tfliteBackend smallTflite)).exec
        (.initial cpuCli smallState warmedUp) hungRun = some s ∧ openStart s.loop.calls = some 5850 ∧
      s.loop.clock < 5850 + 1 + 1000 * 60 + (5000 + 2 * 1000) := by
  have hpunctual : (system cpuCli transferJson (tfliteBackend smallTflite)).Always
      (System.Punctual 1000) (.initial cpuCli smallState warmedUp) hungRun := by decide +kernel
  have hrun : ((system cpuCli transferJson (tfliteBackend smallTflite)).exec
      (.initial cpuCli smallState warmedUp) hungRun).any (fun s => s.loop.phase.isExited = false ∧
        openStart s.loop.calls = some 5850 ∧ (starts s.loop.calls).length < 2 ^ 64) = true := by
    decide +kernel
  obtain ⟨s, hs, htest⟩ := (Option.any_eq_true ..).mp hrun
  obtain ⟨hrunning, hopen, hcount⟩ := of_decide_eq_true htest
  exact ⟨s, hs, hopen,
    (((system_deadlines hpunctual hs hrunning).2 hcount).2 (by decide)).1 5850 hopen⟩

end FrigateZmqDetector.Worker
