import Mathlib.Algebra.Group.Action.Defs
import Mathlib.Algebra.Order.BigOperators.Group.List
import Mathlib.Algebra.Order.Group.Nat
import Mathlib.Algebra.Ring.Nat
import FrigateZmqDetector.Worker.Accounting

/-!
# The statistics of the loop

`LoopStats` counts the exchanges of an interval of at least a minute, logs them and starts again.
`record` reads the clock up to three times: for the response time, for the length of the interval,
and, when a line has been written, for the start of the next one. Time passes in between and the
monitor may end the process, so `statsLoop` takes it in steps. The statistics steer nothing
(`exec_statsLoop`). Behind the counters stand the exchanges themselves, cut into the intervals that
were logged and the one that is open (`Sums`, `Logged`).

`loop_stats` is what the log can be read for: no exchange is counted twice or lost between two
lines, the counts of inferences are those of the progress watchdog, and the numbers of one line fit
together. In particular there is an exchange in every interval, so its average is never divided by
zero, and the response times of an interval never add up to more than the interval. The intervals do
not overlap; between two of them a line is written.
-/

namespace FrigateZmqDetector.Worker

open Lib Protocol Tflite Watchdog

/-! ### Counters -/

/-- One minute. -/
def healthLogIntervalMs : ℕ := 60000

/-- The counters of an interval. Times are in milliseconds. -/
structure LoopStats where
  intervalStarted : ℕ
  requests : ℕ
  mgmtRequests : ℕ
  inferenceRequests : ℕ
  totalResponseTime : ℕ
  maxResponseTime : ℕ
  deriving DecidableEq, Repr

/-- The counters that a log line is made of, and the length of its interval. -/
structure StatsReport where
  stats : LoopStats
  elapsed : ℕ
  deriving DecidableEq, Repr

namespace LoopStats

def new (now : ℕ) : LoopStats where
  intervalStarted := now
  requests := 0
  mgmtRequests := 0
  inferenceRequests := 0
  totalResponseTime := 0
  maxResponseTime := 0

def add (s : LoopStats) (isMgmt : Bool) (responseTime : ℕ) : LoopStats :=
  { s with
    requests := (s.requests + 1) % 2 ^ 64
    mgmtRequests := if isMgmt then (s.mgmtRequests + 1) % 2 ^ 64 else s.mgmtRequests
    inferenceRequests :=
      if isMgmt then s.inferenceRequests else (s.inferenceRequests + 1) % 2 ^ 64
    totalResponseTime := s.totalResponseTime + responseTime
    maxResponseTime := max s.maxResponseTime responseTime }

/-- The line of an interval that is long enough. -/
def report (s : LoopStats) (now : ℕ) : Option StatsReport :=
  let elapsed := now - s.intervalStarted
  if elapsed < healthLogIntervalMs then none else some ⟨s, elapsed⟩

end LoopStats

/-! ### In the loop -/

variable {σ : Type} {cli : Cli} {json : SerdeJson} {b : DetectorBackend σ} {w w' : State σ}
  {e : Event} {events : List Event}

/-- Where the loop is in `record`. -/
inductive Recording where
  | idle
  | entered (isMgmt : Bool)
  | counted
  | logged
  deriving DecidableEq, Repr

/-- The statistics, when the request in hand came, and what has been logged. -/
structure LoopLog where
  requestStarted : ℕ
  stats : LoopStats
  reports : List StatsReport
  recording : Recording
  deriving DecidableEq, Repr

namespace LoopLog

def initial : LoopLog := ⟨0, .new 0, [], .idle⟩

/-- `record` up to its next reading of the clock, that one included: the exchange is counted, a line
is logged if the interval is long enough, and the next interval starts. -/
def record (g : LoopLog) (now : ℕ) : Option LoopLog :=
  match g.recording with
  | .idle => none
  | .entered isMgmt => some { g with
      stats := g.stats.add isMgmt (now - g.requestStarted)
      recording := .counted }
  | .counted =>
    match g.stats.report now with
    | none => some { g with recording := .idle }
    | some r => some { g with reports := g.reports ++ [r], recording := .logged }
  | .logged => some { g with stats := .new now, recording := .idle }

/-- What a step of the loop does to its statistics. An update that ends the process does not come
back to record the exchange. -/
def note (json : SerdeJson) (w : State σ) (e : Event) (g : LoopLog) : LoopLog :=
  match w.phase, e with
  | .received _, .start => { g with requestStarted := w.clock }
  | .updating msg _ sendOk, .update =>
    if (w.update json msg sendOk).phase.isExited then g
    else { g with recording := .entered (classifyMessage json msg) }
  | _, _ => g

end LoopLog

/-- A step of the loop, or the next one of `record`. -/
inductive StatsEvent where
  | loop (e : Event)
  | record
  deriving DecidableEq, Repr

def StatsEvent.loop? : StatsEvent → Option Event
  | .loop e => some e
  | .record => none

/-- What goes on while the loop is in `record`. -/
def Event.isConcurrent : Event → Bool
  | .tick _ | .monitor => true
  | _ => false

/-- The request loop with its statistics. -/
def statsLoop (cli : Cli) (json : SerdeJson) (b : DetectorBackend σ) :
    Machine (State σ × LoopLog) StatsEvent where
  step p
    | .loop e =>
      if p.2.recording = .idle ∨ e.isConcurrent = true then
        ((loop cli json b).observe (LoopLog.note json)).step p e
      else none
    | .record =>
      if p.1.phase.isExited then none
      else (p.2.record p.1.clock).map fun g => (p.1, g)

variable {g g' : LoopLog} {l : StatsEvent}

/-- **Every step of the loop with its statistics is one of the loop, or one of `record`.** -/
theorem stats_step_cases (h : (statsLoop cli json b).step (w, g) l = some (w', g')) :
    (∃ e, l = .loop e ∧ (g.recording = .idle ∨ e.isConcurrent = true) ∧
        (loop cli json b).step w e = some w' ∧ g' = g.note json w e) ∨
      (l = .record ∧ w.phase.isExited = false ∧ w' = w ∧ g.record w.clock = some g') := by
  cases l with
  | loop e =>
    obtain ⟨hguard, hs⟩ := Option.ite_none_right_eq_some.mp h
    obtain ⟨hstep, hnote⟩ := Machine.step_observe.mp hs
    exact Or.inl ⟨e, rfl, hguard, hstep, hnote.symm⟩
  | record =>
    obtain ⟨hrun, hs⟩ := Option.ite_none_left_eq_some.mp h
    obtain ⟨g₁, hrecord, heq⟩ := Option.map_eq_some_iff.mp hs
    obtain ⟨rfl, rfl⟩ := Prod.mk.inj heq
    exact Or.inr ⟨rfl, Bool.eq_false_iff.mpr hrun, rfl, hrecord⟩

/-! ### The exchanges behind the counters -/

/-- An exchange, as it is recorded. -/
structure Sample where
  isMgmt : Bool
  responseTime : ℕ

/-- These exchanges have been counted. -/
structure LoopStats.Sums (s : LoopStats) (xs : List Sample) : Prop where
  requests : s.requests = xs.length % 2 ^ 64
  mgmtRequests : s.mgmtRequests = xs.countP Sample.isMgmt % 2 ^ 64
  inferenceRequests : s.inferenceRequests = xs.countP (fun x => !x.isMgmt) % 2 ^ 64
  totalResponseTime : s.totalResponseTime = (xs.map Sample.responseTime).sum
  maxResponseTime : ∀ x ∈ xs, x.responseTime ≤ s.maxResponseTime
  reached : s.maxResponseTime = 0 ∨ ∃ x ∈ xs, x.responseTime = s.maxResponseTime

namespace LoopStats.Sums

variable {s : LoopStats} {xs : List Sample}

theorem new (now : ℕ) : (LoopStats.new now).Sums [] where
  requests := rfl
  mgmtRequests := rfl
  inferenceRequests := rfl
  totalResponseTime := rfl
  maxResponseTime x hx := by cases hx
  reached := Or.inl rfl

variable (h : s.Sums xs)
include h

theorem add (isMgmt : Bool) (responseTime : ℕ) :
    (s.add isMgmt responseTime).Sums (xs ++ [⟨isMgmt, responseTime⟩]) where
  requests := by simp [LoopStats.add, h.requests]
  mgmtRequests := by cases isMgmt <;> simp [LoopStats.add, h.mgmtRequests]
  inferenceRequests := by cases isMgmt <;> simp [LoopStats.add, h.inferenceRequests]
  totalResponseTime := by simp [LoopStats.add, h.totalResponseTime]
  maxResponseTime x hx := by
    rcases List.mem_append.mp hx with hx | hx
    · exact le_trans (h.maxResponseTime x hx) (le_max_left _ _)
    · rw [List.mem_singleton.mp hx]
      exact le_max_right _ _
  reached := by
    rcases le_total s.maxResponseTime responseTime with hle | hle
    · exact Or.inr ⟨⟨isMgmt, responseTime⟩, by simp, (max_eq_right hle).symm⟩
    · have hmax : (s.add isMgmt responseTime).maxResponseTime = s.maxResponseTime := max_eq_left hle
      rw [hmax]
      exact h.reached.imp id fun ⟨x, hx, heq⟩ => ⟨x, by simp [hx], heq⟩

/-- The longest exchange is one of them. -/
theorem max_le_total : s.maxResponseTime ≤ s.totalResponseTime := by
  rcases h.reached with hzero | ⟨x, hx, heq⟩
  · omega
  · rw [← heq, h.totalResponseTime]
    exact List.single_le_sum (fun _ _ => Nat.zero_le _) _ (List.mem_map_of_mem hx)

theorem total_le : s.totalResponseTime ≤ xs.length * s.maxResponseTime := by
  have hle := List.sum_le_card_nsmul (xs.map Sample.responseTime) s.maxResponseTime (by
    intro t ht
    obtain ⟨x, hx, rfl⟩ := List.mem_map.mp ht
    exact h.maxResponseTime x hx)
  rwa [List.length_map, smul_eq_mul, ← h.totalResponseTime] at hle

end LoopStats.Sums

/-! ### The exchanges of a run -/

/-- The request in hand is being timed. -/
def Phase.isTimed : Phase σ → Bool
  | .dispatching _ | .sending .. | .updating .. => true
  | .receiving | .received _ | .exited .. => false

theorem Phase.isTimed_of_exited {p : Phase σ} (h : p.isExited = true) : p.isTimed = false := by
  cases p <;> first | rfl | cases h

theorem State.update_calls (w : State σ) (json : SerdeJson) (msg : ZmqMessage) (sendOk : Bool) :
    (w.update json msg sendOk).calls =
      if classifyMessage json msg then w.calls else w.calls ++ [responseCall sendOk w.clock] := by
  unfold State.update
  split_ifs <;> simp [responseCall, *]

/-- The exchange that `record` has been called for and has not counted. -/
def Recording.due : Recording → List Bool
  | .entered isMgmt => [isMgmt]
  | _ => []

/-- The exchanges of an interval whose line is written while it is still the open one. -/
def Recording.written (current : List Sample) : Recording → List (List Sample)
  | .logged => [current]
  | _ => []

/-- A line of the log is about these exchanges. -/
structure StatsReport.Covers (r : StatsReport) (xs : List Sample) : Prop where
  sums : r.stats.Sums xs
  ne_nil : xs ≠ []
  long : healthLogIntervalMs ≤ r.elapsed
  busy : r.stats.totalResponseTime ≤ r.elapsed

/-- The exchanges of a run, cut into the intervals that have been logged and the open one. -/
structure Logged (json : SerdeJson) (w : State σ) (g : LoopLog) (logged : List (List Sample))
    (current : List Sample) : Prop where
  sums : g.stats.Sums current
  reports : List.Forall₂ StatsReport.Covers g.reports (logged ++ g.recording.written current)
  /-- The intervals do not overlap, not even while a line is written. -/
  within : (g.reports.map StatsReport.elapsed).sum ≤ w.clock
  apart : g.recording ≠ .logged →
    (g.reports.map StatsReport.elapsed).sum ≤ g.stats.intervalStarted
  /-- The exchanges of the open interval fit into it, -/
  busy : g.stats.intervalStarted + g.stats.totalResponseTime ≤ w.clock
  /-- and those before the one in hand into the time before it. -/
  timed : w.phase.isTimed = true ∨ g.recording.due ≠ [] →
    g.stats.intervalStarted + g.stats.totalResponseTime ≤ g.requestStarted ∧
      g.requestStarted ≤ w.clock
  answered : g.recording ≠ .idle → w.phase.isTimed = false
  counted : g.recording = .counted → current ≠ []
  bounded : (logged.flatten ++ current).length + g.recording.due.length ≤ w.received.length
  messages : w.phase.isExited = false → w.received.map (classifyMessage json) =
    (logged.flatten ++ current).map Sample.isMgmt ++ g.recording.due ++
      (w.phase.message?.map (classifyMessage json)).toList
  inferences : w.phase.isExited = false → (oks w.calls).length + (errs w.calls).length =
    ((logged.flatten ++ current).map Sample.isMgmt ++ g.recording.due).countP (!·)

def StatsInv (json : SerdeJson) (p : State σ × LoopLog) : Prop :=
  ∃ logged current, Logged json p.1 p.2 logged current

namespace StatsInv

theorem initial (backend : σ) : StatsInv json (.initial cli backend, .initial) :=
  ⟨[], [], {
    sums := .new 0
    reports := .nil
    within := le_rfl
    apart := fun _ => le_rfl
    busy := le_rfl
    timed := fun _ => ⟨le_rfl, le_rfl⟩
    answered := fun _ => rfl
    counted := by simp [LoopLog.initial]
    bounded := le_rfl
    messages := fun _ => rfl
    inferences := fun _ => rfl }⟩

variable (h : StatsInv json (w, g))
include h

/-- A step that ends no exchange and starts none. -/
theorem quiet (hclock : w.clock ≤ w'.clock) (hreceived : w'.received = w.received)
    (htimed : w'.phase.isTimed = true → w.phase.isTimed = true)
    (hrun : w'.phase.isExited = false → w.phase.isExited = false ∧
      w'.phase.message? = w.phase.message? ∧ w'.calls = w.calls) : StatsInv json (w', g) := by
  obtain ⟨logged, current, hl⟩ := h
  exact ⟨logged, current, { hl with
    within := le_trans hl.within hclock
    busy := le_trans hl.busy hclock
    timed := fun ht => (hl.timed (ht.imp htimed id)).imp id fun hle => le_trans hle hclock
    answered := fun hr => Bool.eq_false_iff.mpr fun ht => by
      rw [hl.answered hr] at htimed
      cases htimed ht
    bounded := hreceived ▸ hl.bounded
    messages := fun hrun' => by
      obtain ⟨hrunning, hmsg, -⟩ := hrun hrun'
      rw [hreceived, hmsg]
      exact hl.messages hrunning
    inferences := fun hrun' => by
      obtain ⟨hrunning, -, hcalls⟩ := hrun hrun'
      rw [hcalls]
      exact hl.inferences hrunning }⟩

theorem exit (hclock : w.clock ≤ w'.clock) (hreceived : w'.received = w.received)
    (hexit : w'.phase.isExited = true) : StatsInv json (w', g) := by
  refine h.quiet hclock hreceived (fun ht => ?_) fun hrun => ?_
  · rw [Phase.isTimed_of_exited hexit] at ht
    cases ht
  · rw [hexit] at hrun
    cases hrun

theorem check (site : CheckSite) : StatsInv json (w.check site, g) := by
  rcases w.check_cases site with ⟨-, hw⟩ | ⟨reason, -, hw⟩ <;> rw [hw]
  · exact h
  · exact h.exit le_rfl rfl rfl

theorem recv {msg : ZmqMessage} (hp : w.phase = .receiving) : StatsInv json (w.recv msg, g) := by
  obtain ⟨logged, current, hl⟩ := h
  have hmessages := hl.messages (hp ▸ rfl)
  have hinferences := hl.inferences (hp ▸ rfl)
  rw [hp] at hmessages
  refine ⟨logged, current, { hl with
    timed := fun ht => hl.timed (Or.inr (ht.resolve_left (by simp [State.recv, Phase.isTimed])))
    answered := fun _ => rfl
    bounded := ?_
    messages := fun _ => ?_
    inferences := fun _ => hinferences }⟩
  · show _ ≤ (w.received ++ [msg]).length
    exact le_trans hl.bounded (by simp)
  · show (w.received ++ [msg]).map _ = _
    rw [List.map_append, hmessages]
    simp [Phase.message?, State.recv]

/-- A request is timed from here on. -/
theorem start {msg : ZmqMessage} (hp : w.phase = .received msg) (hidle : g.recording = .idle) :
    StatsInv json (w.start json msg, { g with requestStarted := w.clock }) := by
  obtain ⟨logged, current, hl⟩ := h
  obtain ⟨hphase, -, hreceived, -, hclock⟩ := w.start_spec json msg
  have hmessages := hl.messages (hp ▸ rfl)
  have hinferences := hl.inferences (hp ▸ rfl)
  have hcalls : oks (w.start json msg).calls = oks w.calls ∧
      errs (w.start json msg).calls = errs w.calls := by
    unfold State.start
    split_ifs <;> simp [Call.ok?, Call.err?]
  rw [hp] at hmessages
  exact ⟨logged, current, { hl with
    within := hclock ▸ hl.within
    busy := hclock ▸ hl.busy
    timed := fun _ => ⟨hl.busy, hclock ▸ le_rfl⟩
    answered := fun hr => absurd hidle hr
    bounded := hreceived ▸ hl.bounded
    messages := fun _ => by rw [hreceived, hphase]; exact hmessages
    inferences := fun _ => by rw [hcalls.1, hcalls.2]; exact hinferences }⟩

/-- An exchange is over: `record` is called for it. -/
theorem update {msg : ZmqMessage} {before : σ} {sendOk : Bool}
    (hp : w.phase = .updating msg before sendOk) (hidle : g.recording = .idle)
    (hrun : (w.update json msg sendOk).phase.isExited = false) :
    StatsInv json (w.update json msg sendOk,
      { g with recording := .entered (classifyMessage json msg) }) := by
  obtain ⟨logged, current, hl⟩ := h
  have hphase := State.update_receiving hrun
  obtain ⟨-, -, hreceived, -, hclock⟩ := w.update_spec json msg sendOk
  have hmessages : w.received.map (classifyMessage json) =
      (logged.flatten ++ current).map Sample.isMgmt ++ [classifyMessage json msg] := by
    rw [hl.messages (hp ▸ rfl), hidle, hp, List.append_assoc]
    rfl
  have hinferences : (oks w.calls).length + (errs w.calls).length =
      ((logged.flatten ++ current).map Sample.isMgmt).countP (!·) := by
    rw [hl.inferences (hp ▸ rfl), hidle]
    exact congrArg _ (List.append_nil _)
  refine ⟨logged, current, {
    sums := hl.sums
    reports := by simpa [hidle, Recording.written] using hl.reports
    within := hclock ▸ hl.within
    apart := fun _ => hl.apart (by simp [hidle])
    busy := hclock ▸ hl.busy
    timed := fun _ => hclock ▸ hl.timed (Or.inl (hp ▸ rfl))
    answered := fun _ => hphase ▸ rfl
    counted := nofun
    bounded := ?_
    messages := fun _ => ?_
    inferences := fun _ => ?_ }⟩
  · have hlen := congrArg List.length hmessages
    rw [List.length_map, List.length_append, List.length_map] at hlen
    rw [hreceived]
    exact hlen.ge
  · rw [hreceived, hphase, hmessages]
    exact (List.append_nil _).symm
  · rw [w.update_calls json msg sendOk, List.countP_append, ← hinferences]
    cases hc : classifyMessage json msg with
    | true => simp [Recording.due]
    | false => cases sendOk <;> simp [Recording.due, responseCall, Call.ok?, Call.err?] <;> omega

/-- **`record` keeps the cut**: the exchange goes into the open interval, which may end with it. -/
theorem record (hrecord : g.record w.clock = some g') : StatsInv json (w, g') := by
  obtain ⟨logged, current, hl⟩ := h
  obtain ⟨requestStarted, stats, reports, recording⟩ := g
  cases recording with
  | idle => cases hrecord
  | entered isMgmt =>
    cases hrecord
    have htimed := hl.timed (Or.inr (List.cons_ne_nil _ _))
    have hbusy : stats.intervalStarted + (stats.totalResponseTime + (w.clock - requestStarted)) ≤
        w.clock := by
      simp only at htimed
      omega
    refine ⟨logged, current ++ [⟨isMgmt, w.clock - requestStarted⟩], {
      sums := hl.sums.add isMgmt (w.clock - requestStarted)
      reports := hl.reports
      within := hl.within
      apart := fun _ => hl.apart (by simp)
      busy := hbusy
      timed := fun ht => ?_
      answered := fun _ => hl.answered (by simp)
      counted := fun _ => by simp
      bounded := ?_
      messages := fun hrun => ?_
      inferences := fun hrun => ?_ }⟩
    · have hphase : w.phase.isTimed = false := hl.answered (by simp)
      rw [hphase] at ht
      exact absurd ht (by simp [Recording.due])
    · simpa [Recording.due, Nat.add_assoc] using hl.bounded
    · simpa [Recording.due] using hl.messages hrun
    · simpa [Recording.due] using hl.inferences hrun
  | counted =>
    have hcurrent := hl.counted rfl
    have hwithin := hl.within
    have happart : (reports.map StatsReport.elapsed).sum ≤ stats.intervalStarted :=
      hl.apart (by simp)
    have hbusy : stats.intervalStarted + stats.totalResponseTime ≤ w.clock := hl.busy
    simp only [LoopLog.record, LoopStats.report] at hrecord
    by_cases helapsed : w.clock - stats.intervalStarted < healthLogIntervalMs
    · rw [if_pos helapsed] at hrecord
      cases hrecord
      exact ⟨logged, current, { hl with
        reports := hl.reports
        apart := fun _ => happart
        answered := fun hr => absurd rfl hr
        counted := nofun }⟩
    · rw [if_neg helapsed] at hrecord
      cases hrecord
      have hcovers : StatsReport.Covers ⟨stats, w.clock - stats.intervalStarted⟩ current :=
        ⟨hl.sums, hcurrent, Nat.le_of_not_lt helapsed, by simp only; omega⟩
      refine ⟨logged, current, { hl with
        reports := ?_
        within := ?_
        apart := fun hr => absurd rfl hr
        answered := fun _ => hl.answered (by simp)
        counted := nofun }⟩
      · have hreports := hl.reports
        simp only [Recording.written, List.append_nil] at hreports
        exact List.rel_append hreports (.cons hcovers .nil)
      · simp only [List.map_append, List.map_cons, List.map_nil, List.sum_append, List.sum_cons,
          List.sum_nil]
        omega
  | logged =>
    cases hrecord
    have hflatten : (logged ++ [current]).flatten ++ [] = logged.flatten ++ current := by simp
    refine ⟨logged ++ [current], [], {
      sums := .new w.clock
      reports := by simpa [Recording.written] using hl.reports
      within := hl.within
      apart := fun _ => hl.within
      busy := le_rfl
      timed := fun ht => ?_
      answered := fun hr => absurd rfl hr
      counted := nofun
      bounded := hflatten ▸ hl.bounded
      messages := hflatten ▸ hl.messages
      inferences := hflatten ▸ hl.inferences }⟩
    have hphase : w.phase.isTimed = false := hl.answered (by simp)
    rw [hphase] at ht
    exact absurd ht (by simp [Recording.due])

omit h in
theorem note_of_ne (w : State σ) (g : LoopLog) (hstart : e ≠ .start) (hupdate : e ≠ .update) :
    g.note json w e = g := by
  unfold LoopLog.note
  split
  · exact absurd rfl hstart
  · exact absurd rfl hupdate
  · rfl

/-- **Every step keeps the cut.** -/
theorem step (hguard : g.recording = .idle ∨ e.isConcurrent = true)
    (hs : (loop cli json b).step w e = some w') : StatsInv json (w', g.note json w e) := by
  cases step_cases hs with
  | tick ms hrun =>
    rw [note_of_ne w g (by simp) (by simp)]
    exact h.quiet (Nat.le_add_right _ _) rfl id fun _ => ⟨hrun, rfl, rfl⟩
  | monitor =>
    rw [note_of_ne w g (by simp) (by simp)]
    exact h.check _
  | recv msg hp =>
    rw [note_of_ne w g (by simp) (by simp)]
    exact h.recv hp
  | recvTimeout =>
    rw [note_of_ne w g (by simp) (by simp)]
    exact h.check _
  | recvError =>
    rw [note_of_ne w g (by simp) (by simp)]
    have hslept : StatsInv json (w.slept, g) :=
      h.quiet (Nat.le_add_right _ _) rfl id fun hrun => ⟨hrun, rfl, rfl⟩
    exact hslept.check _
  | start hp =>
    simp only [LoopLog.note, hp]
    exact h.start hp (hguard.resolve_right (by simp [Event.isConcurrent]))
  | @dispatch msg hp =>
    rw [note_of_ne w g (by simp) (by simp)]
    rcases w.dispatched_cases json b msg with ⟨reply, -, hw⟩ | hw <;> rw [hw]
    · exact h.quiet le_rfl rfl (fun _ => hp ▸ rfl) fun _ => ⟨hp ▸ rfl, hp ▸ rfl, rfl⟩
    · exact h.exit le_rfl rfl rfl
  | nativeTimeout =>
    rw [note_of_ne w g (by simp) (by simp)]
    exact h.exit le_rfl rfl rfl
  | send outcome hp =>
    rw [note_of_ne w g (by simp) (by simp)]
    exact h.quiet le_rfl rfl (fun _ => hp ▸ rfl) fun _ => ⟨hp ▸ rfl, hp ▸ rfl, rfl⟩
  | @update msg before sendOk hp =>
    simp only [LoopLog.note, hp]
    split_ifs with hexit
    · obtain ⟨-, -, hreceived, -, hclock⟩ := w.update_spec json msg sendOk
      exact h.exit hclock.ge hreceived hexit
    · exact h.update hp (hguard.resolve_right (by simp [Event.isConcurrent]))
        (Bool.eq_false_iff.mpr hexit)

end StatsInv

/-- **Nothing is lost between two lines**: what the lines count adds up. -/
theorem sum_reports {f : LoopStats → ℕ} {p : Sample → Bool} {reports : List StatsReport}
    {logged : List (List Sample)} (hf : ∀ s xs, LoopStats.Sums s xs → f s = xs.countP p % 2 ^ 64)
    (h : List.Forall₂ StatsReport.Covers reports logged) (hlen : logged.flatten.length < 2 ^ 64) :
    (reports.map fun r => f r.stats).sum = logged.flatten.countP p := by
  induction h with
  | nil => rfl
  | @cons r xs reports logged hr _ ih =>
    rw [List.flatten_cons, List.length_append] at hlen
    have hle : xs.countP p ≤ xs.length := List.countP_le_length
    rw [List.map_cons, List.sum_cons, List.flatten_cons, List.countP_append, ih (by omega),
      hf _ _ hr.sums, Nat.mod_eq_of_lt (by omega)]

theorem exists_covers {r : StatsReport} {reports : List StatsReport} {logged : List (List Sample)}
    (h : List.Forall₂ StatsReport.Covers reports logged) (hr : r ∈ reports) :
    ∃ xs, r.Covers xs ∧ xs.length ≤ logged.flatten.length := by
  induction h with
  | nil => cases hr
  | @cons r' xs reports logged hcovers _ ih =>
    rw [List.flatten_cons, List.length_append]
    rcases List.mem_cons.mp hr with rfl | hr
    · exact ⟨xs, hcovers, Nat.le_add_right _ _⟩
    · obtain ⟨ys, hys, hle⟩ := ih hr
      exact ⟨ys, hys, by omega⟩

/-- **The numbers of a line fit together.** -/
theorem StatsReport.Covers.consistent {r : StatsReport} {xs : List Sample} (h : r.Covers xs)
    (hlen : xs.length < 2 ^ 64) :
    0 < r.stats.requests ∧
      r.stats.requests = r.stats.mgmtRequests + r.stats.inferenceRequests ∧
      r.stats.totalResponseTime ≤ r.stats.requests * r.stats.maxResponseTime := by
  have hrequests : r.stats.requests = xs.length := by
    rw [h.sums.requests, Nat.mod_eq_of_lt hlen]
  have hcount := List.length_eq_countP_add_countP Sample.isMgmt (l := xs)
  have hnot : (xs.countP fun x => decide ¬ x.isMgmt = true) = xs.countP fun x => !x.isMgmt :=
    List.countP_congr fun x _ => by simp
  rw [hnot] at hcount
  rw [hrequests, h.sums.mgmtRequests, h.sums.inferenceRequests, Nat.mod_eq_of_lt (by omega),
    Nat.mod_eq_of_lt (by omega)]
  exact ⟨List.length_pos_iff.mpr h.ne_nil, hcount, h.sums.total_le⟩

/-- Every run of the loop with its statistics keeps the cut. -/
theorem logged_of_exec {backend : σ} {ls : List StatsEvent}
    (h : (statsLoop cli json b).exec (.initial cli backend, .initial) ls = some (w, g)) :
    ∃ logged current, Logged json w g logged current := by
  refine Machine.exec_invariant (I := StatsInv json) ?_ (.initial backend) h
  rintro ⟨w, g⟩ l ⟨w', g'⟩ hinv hs
  rcases stats_step_cases hs with ⟨e, -, hguard, hstep, rfl⟩ | ⟨-, -, rfl, hrecord⟩
  · exact StatsInv.step hinv hguard hstep
  · exact StatsInv.record hinv hrecord

/-- **What the log can be read for.** In every line there is an exchange, the two kinds of requests
make up all of them, the longest one is within the total and the total within that of as many
longest ones, and within the interval, which is a minute or more. The intervals are no longer than
the time that has passed. Outside `record` the open interval begins after all of them; while the
worker runs, the inferences of all lines and of the open interval are those that the progress
watchdog has seen answered; and back at `recv`, all messages are counted, and the model requests
apart. -/
theorem loop_stats {backend : σ} {ls : List StatsEvent}
    (h : (statsLoop cli json b).exec (.initial cli backend, .initial) ls = some (w, g))
    (hcount : w.received.length < 2 ^ 64) :
    (∀ r ∈ g.reports, 0 < r.stats.requests ∧
      r.stats.requests = r.stats.mgmtRequests + r.stats.inferenceRequests ∧
      r.stats.maxResponseTime ≤ r.stats.totalResponseTime ∧
      r.stats.totalResponseTime ≤ r.stats.requests * r.stats.maxResponseTime ∧
      r.stats.totalResponseTime ≤ r.elapsed ∧ healthLogIntervalMs ≤ r.elapsed) ∧
    (g.reports.map StatsReport.elapsed).sum ≤ w.clock ∧
    (g.recording = .idle →
      (g.reports.map StatsReport.elapsed).sum ≤ g.stats.intervalStarted ∧
      (w.phase.isExited = false →
        (g.reports.map fun r => r.stats.inferenceRequests).sum + g.stats.inferenceRequests =
          (oks w.calls).length + (errs w.calls).length) ∧
      (w.phase = .receiving →
        (g.reports.map fun r => r.stats.requests).sum + g.stats.requests = w.received.length ∧
        (g.reports.map fun r => r.stats.mgmtRequests).sum + g.stats.mgmtRequests =
          w.received.countP (classifyMessage json))) := by
  obtain ⟨logged, current, hl⟩ := logged_of_exec h
  have hlen : logged.flatten.length + current.length < 2 ^ 64 := by
    have hle := hl.bounded
    rw [List.length_append] at hle
    omega
  refine ⟨fun r hr => ?_, hl.within, fun hidle => ?_⟩
  · obtain ⟨xs, hcovers, hle⟩ := exists_covers hl.reports hr
    have hwritten : (logged ++ g.recording.written current).flatten.length ≤
        logged.flatten.length + current.length := by
      cases g.recording <;> simp [Recording.written]
    obtain ⟨hpos, hsplit, hmax⟩ := hcovers.consistent (by omega)
    exact ⟨hpos, hsplit, hcovers.sums.max_le_total, hmax, hcovers.busy, hcovers.long⟩
  have hreports := hl.reports
  have hmessages := hl.messages
  have hinferences := hl.inferences
  rw [hidle] at hreports hmessages hinferences
  simp only [Recording.written, Recording.due, List.append_nil] at hreports hmessages hinferences
  have htotal : ∀ {f : LoopStats → ℕ} {p : Sample → Bool},
      (∀ s xs, LoopStats.Sums s xs → f s = xs.countP p % 2 ^ 64) →
      (g.reports.map fun r => f r.stats).sum + f g.stats =
        (logged.flatten ++ current).countP p := by
    intro f p hf
    have hle : current.countP p ≤ current.length := List.countP_le_length
    rw [sum_reports hf hreports (by omega), hf _ _ hl.sums, Nat.mod_eq_of_lt (by omega),
      List.countP_append]
  refine ⟨hl.apart (by simp [hidle]), fun hrun => ?_, fun hp => ?_⟩
  · rw [htotal fun s xs hs => hs.inferenceRequests, hinferences hrun, List.countP_map]
    rfl
  · have hall := hmessages (hp ▸ rfl)
    rw [hp] at hall
    have hnone : w.received.map (classifyMessage json) =
        (logged.flatten ++ current).map Sample.isMgmt := by
      rw [hall]
      exact List.append_nil _
    refine ⟨?_, ?_⟩
    · rw [htotal (p := fun _ => true) fun s xs hs => by rw [List.countP_true, hs.requests],
        List.countP_true, ← List.length_map Sample.isMgmt, ← hnone, List.length_map]
    · have hcountP := congrArg (List.countP id) hnone
      rw [List.countP_map, List.countP_map] at hcountP
      rw [htotal fun s xs hs => hs.mgmtRequests]
      exact hcountP.symm

/-- A model that takes 5 to load, and an inference of 20 a minute later. The line takes 3 to
write. -/
def minuteRun : List StatsEvent :=
  [.loop (.recv [transferHeader "ssd", [1]]), .loop .start, .loop (.tick 5), .loop .dispatch,
    .loop (.send .ok), .loop .update, .record, .record, .loop (.tick 60000),
    .loop (.recv [[], [0, 0]]), .loop .start, .loop (.tick 20), .loop .dispatch, .loop (.send .ok),
    .loop .update, .record, .record, .loop (.tick 3), .record]

theorem loop_stats_minute :
    ∃ w g, (statsLoop cpuCli transferJson (tfliteBackend smallTflite)).exec
        (.initial cpuCli smallState, .initial) minuteRun = some (w, g) ∧
      g.reports = [⟨⟨0, 2, 1, 1, 25, 20⟩, 60025⟩] ∧ g.stats = .new 60028 ∧
      (g.reports.map fun r => r.stats.inferenceRequests).sum + g.stats.inferenceRequests =
        (oks w.calls).length + (errs w.calls).length := by
  have hrun : ((statsLoop cpuCli transferJson (tfliteBackend smallTflite)).exec
      (.initial cpuCli smallState, .initial) minuteRun).any
        (fun p => p.2.reports = [⟨⟨0, 2, 1, 1, 25, 20⟩, 60025⟩] ∧ p.2.stats = .new 60028 ∧
          p.2.recording = .idle ∧ p.1.phase.isExited = false ∧
          p.1.received.length < 2 ^ 64) = true := by decide +kernel
  obtain ⟨⟨w, g⟩, hw, htest⟩ := (Option.any_eq_true ..).mp hrun
  obtain ⟨hreports, hstats, hidle, hrunning, hcount⟩ := of_decide_eq_true htest
  exact ⟨w, g, hw, hreports, hstats, ((loop_stats hw hcount).2.2 hidle).2.1 hrunning⟩

/-! ### The statistics steer nothing -/

/-- The steps that are left of `record`. -/
def Recording.left : Recording → ℕ
  | .idle => 0
  | .logged => 1
  | .counted => 2
  | .entered _ => 3

theorem LoopLog.record_left (hg : g.recording ≠ .idle) (now : ℕ) :
    ∃ g', g.record now = some g' ∧ g'.recording.left < g.recording.left := by
  obtain ⟨requestStarted, stats, reports, recording⟩ := g
  cases recording with
  | idle => exact absurd rfl hg
  | entered isMgmt => exact ⟨_, rfl, Nat.lt_succ_self 2⟩
  | counted =>
    rcases hr : stats.report now with _ | r <;> simp [LoopLog.record, hr, Recording.left]
  | logged => exact ⟨_, rfl, Nat.lt_succ_self 0⟩

/-- Left alone, `record` comes to its end. -/
theorem record_ends (hrun : w.phase.isExited = false) (g : LoopLog) :
    ∃ n g', (statsLoop cli json b).exec (w, g) (List.replicate n .record) = some (w, g') ∧
      g'.recording = .idle := by
  induction hn : g.recording.left using Nat.strong_induction_on generalizing g with
  | _ n ih =>
    by_cases hg : g.recording = .idle
    · exact ⟨0, g, rfl, hg⟩
    · obtain ⟨g₁, hrecord, hlt⟩ := LoopLog.record_left hg w.clock
      obtain ⟨k, g', hexec, hidle⟩ := ih _ (hn ▸ hlt) g₁ rfl
      have hs : (statsLoop cli json b).step (w, g) .record = some (w, g₁) := by
        simp [statsLoop, hrun, hrecord]
      exact ⟨k + 1, g', Machine.exec_cons_eq_some.mpr ⟨_, hs, hexec⟩, hidle⟩

/-- A step of the loop that is in no `record` leaves it in none, or in one that can come to its
end. -/
theorem note_idle (hidle : g.recording = .idle) (hs : (loop cli json b).step w e = some w') :
    (g.note json w e).recording = .idle ∨ w'.phase.isExited = false := by
  by_cases hupdate : e = .update
  · subst hupdate
    cases step_cases hs with
    | update hp =>
      simp only [LoopLog.note, hp]
      split_ifs with hexit
      · exact Or.inl hidle
      · exact Or.inr (Bool.eq_false_iff.mpr hexit)
  · refine Or.inl ?_
    unfold LoopLog.note
    split
    · exact hidle
    · exact absurd rfl hupdate
    · exact hidle

/-- **The statistics steer nothing**: every run of the loop is one with statistics, the steps of
`record` left out. -/
theorem exec_statsLoop (h : (loop cli json b).exec w events = some w')
    (hidle : g.recording = .idle) :
    ∃ ls g', (statsLoop cli json b).exec (w, g) ls = some (w', g') ∧
      ls.filterMap StatsEvent.loop? = events ∧ g'.recording = .idle := by
  induction events generalizing w g with
  | nil =>
    rw [Machine.exec_nil, Option.some.injEq] at h
    exact ⟨[], g, h ▸ rfl, rfl, hidle⟩
  | cons e events ih =>
    obtain ⟨w₁, hs, hrest⟩ := Machine.exec_cons_eq_some.mp h
    have hstep : (statsLoop cli json b).step (w, g) (.loop e) = some (w₁, g.note json w e) := by
      simp only [statsLoop, hidle, true_or, if_true]
      exact Machine.step_observe.mpr ⟨hs, rfl⟩
    -- `record` is run to its end before the next event
    obtain ⟨n, g₁, hrecords, hidle₁⟩ : ∃ n g₁, (statsLoop cli json b).exec (w₁, g.note json w e)
        (List.replicate n .record) = some (w₁, g₁) ∧ g₁.recording = .idle := by
      rcases note_idle hidle hs with hnote | hrun
      · exact ⟨0, _, rfl, hnote⟩
      · exact record_ends hrun _
    obtain ⟨ls, g', hexec, hevents, hidle'⟩ := ih hrest hidle₁
    refine ⟨.loop e :: (List.replicate n .record ++ ls), g', ?_, ?_, hidle'⟩
    · refine Machine.exec_cons_eq_some.mpr ⟨_, hstep, ?_⟩
      rw [Machine.exec_append, hrecords, Option.bind_some, hexec]
    · have hnone : (List.replicate n StatsEvent.record).filterMap StatsEvent.loop? = [] := by
        simp [StatsEvent.loop?]
      show e :: List.filterMap StatsEvent.loop? (List.replicate n StatsEvent.record ++ ls) = _
      rw [List.filterMap_append, hnone, hevents, List.nil_append]

end FrigateZmqDetector.Worker
