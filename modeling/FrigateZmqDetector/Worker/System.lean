import FrigateZmqDetector.Lib.Simulation
import FrigateZmqDetector.Protocol.FirstModel
import FrigateZmqDetector.Watchdog.Guarded
import FrigateZmqDetector.Worker.Health

/-!
# The whole worker

`Worker.Loop` lets a native call time out whenever it is guarded, lets the monitor check whenever it
likes, and takes the sleep after an error of `recv` for one step. Here these are what they are in
the process: the thread of the process watchdog with the clock it reads, a timer, and a sleep during
which the others go on. The loop's own steps are those of `Worker.Loop`, so every run of the worker
is a run of the loop (`system_refines`), and what is proved of the loop holds of the worker.
-/

namespace FrigateZmqDetector.Worker

open Lib Protocol Tflite Watchdog

/-- The time between two checks of the monitor. -/
def watchdogCheckIntervalMs : ℕ := 5000

structure System (σ : Type) where
  loop : State σ
  /-- When the sleep after an error of `recv` is over. -/
  sleepUntil : Option ℕ
  /-- When the timer of the monitor is due, once the monitor has been polled. -/
  nextCheck : Option ℕ
  guarded : Guarded
  /-- The guarded run of the backend is over, and its reply is not. -/
  returned : Bool

/-- Who moves: time, the loop (its own steps, its sleep, and the two ends of a guarded run of the
backend), the monitor, the thread of the process watchdog, or a spurious wakeup of that. -/
inductive SystemAct where
  | tick (ms : ℕ)
  | loop (e : Event)
  | recvError
  | awake
  | arm
  | disarm
  | dispatch
  | monitor
  | thread
  | wakeup
  deriving DecidableEq, Repr

/-- The steps of the loop that nothing else has a part in. -/
def Event.isOwn : Event → Bool
  | .recv _ | .recvTimeout | .start | .send _ | .update => true
  | .tick _ | .recvError | .dispatch | .monitor | .nativeTimeout => false

/-- The backend runs for this message, and runs under the process watchdog. -/
def Guards {σ : Type} (cli : Cli) (json : SerdeJson) (b : DetectorBackend σ) (w : State σ)
    (msg : ZmqMessage) : Prop :=
  0 < cli.inferenceTimeoutMs ∧ classifyMessage json msg = false ∧ 2 ≤ msg.length ∧
    b.isReady w.backend = true

instance {σ : Type} (cli : Cli) (json : SerdeJson) (b : DetectorBackend σ) (w : State σ)
    (msg : ZmqMessage) : Decidable (Guards cli json b w msg) := by
  unfold Guards
  infer_instance

namespace System

variable {σ : Type} (s : System σ)

/-- A worker that enters the loop. The warmups before it may have used the process watchdog `g`, whose
clock has been going since the process started. -/
def initial (cli : Cli) (backend : σ) (g : Idle) : System σ where
  loop := .initial cli backend
  sleepUntil := none
  nextCheck := none
  guarded := g.state
  returned := false

/-- The start of the sleep after an error of `recv`. -/
def recvError : System σ :=
  let consecutive := (s.loop.recvErrors + 1) % 2 ^ 32
  { s with
    loop := { s.loop with recvErrors := consecutive }
    sleepUntil := some (s.loop.clock + recvBackoffMs consecutive) }

/-- The end of that sleep. -/
def awake : System σ := { s with loop := s.loop.check .recvError, sleepUntil := none }

/-- A tick of the monitor's timer. The first one only starts it, and a late one is not skipped. -/
def monitor : System σ :=
  match s.nextCheck with
  | none => { s with nextCheck := some (s.loop.clock + watchdogCheckIntervalMs) }
  | some due => { s with
    nextCheck := some (due + watchdogCheckIntervalMs)
    loop := if s.loop.health.isEnabled then s.loop.check .monitor else s.loop }

/-- What a step of the thread leaves of the process. -/
def watched (g : Guarded) : System σ :=
  { s with
    guarded := g
    loop := if g.process.isExited then
        { s.loop with phase := .exited exitCodeNativeTimeout .nativeTimeout }
      else s.loop }

end System

/-- **The worker.** -/
def system {σ : Type} (cli : Cli) (json : SerdeJson) (b : DetectorBackend σ) :
    Machine (System σ) SystemAct where
  step s a :=
    if s.loop.phase.isExited then none
    else match a, s.loop.phase, s.sleepUntil with
    | .tick ms, _, _ => (guarded.step s.guarded (.tick ms)).map fun g =>
      { s with guarded := g, loop := { s.loop with clock := s.loop.clock + ms } }
    | .loop e, _, none =>
      if e.isOwn then ((loop cli json b).step s.loop e).map fun w => { s with loop := w } else none
    | .recvError, .receiving, none => some s.recvError
    | .awake, _, some wake => if wake ≤ s.loop.clock then some s.awake else none
    | .arm, .dispatching msg, _ =>
      if Guards cli json b s.loop msg ∧ s.returned = false then
        (guarded.step s.guarded (.arm "inference" cli.inferenceTimeoutMs)).map fun g =>
          { s with guarded := g }
      else none
    | .disarm, _, _ => (guarded.step s.guarded .drop).map fun g =>
      { s with guarded := g, returned := true }
    | .dispatch, .dispatching msg, _ =>
      -- a guarded run has been armed and disarmed
      if Guards cli json b s.loop msg ∧ s.returned = false then none
      else ((loop cli json b).step s.loop .dispatch).map fun w =>
        { s with loop := w, returned := false }
    | .monitor, _, _ => if s.nextCheck.all (· ≤ s.loop.clock) then some s.monitor else none
    | .thread, _, _ => (guarded.step s.guarded .thread).map s.watched
    | .wakeup, _, _ => (guarded.step s.guarded .wakeup).map s.watched
    | _, _, _ => none

/-- What a step of the worker is, by who moves. -/
inductive SystemStep {σ : Type} (cli : Cli) (json : SerdeJson) (b : DetectorBackend σ)
    (s : System σ) : SystemAct → System σ → Prop
  | tick {g : Guarded} (ms : ℕ) (h : guarded.step s.guarded (.tick ms) = some g) :
    SystemStep cli json b s (.tick ms)
      { s with guarded := g, loop := { s.loop with clock := s.loop.clock + ms } }
  | loop {w : State σ} {e : Event} (hsleep : s.sleepUntil = none) (hown : e.isOwn = true)
    (h : (loop cli json b).step s.loop e = some w) :
    SystemStep cli json b s (.loop e) { s with loop := w }
  | recvError (hsleep : s.sleepUntil = none) (h : s.loop.phase = .receiving) :
    SystemStep cli json b s .recvError s.recvError
  | awake {wake : ℕ} (hsleep : s.sleepUntil = some wake) (h : wake ≤ s.loop.clock) :
    SystemStep cli json b s .awake s.awake
  | arm {msg : ZmqMessage} {g : Guarded} (hp : s.loop.phase = .dispatching msg)
    (hguards : Guards cli json b s.loop msg) (hret : s.returned = false)
    (h : guarded.step s.guarded (.arm "inference" cli.inferenceTimeoutMs) = some g) :
    SystemStep cli json b s .arm { s with guarded := g }
  | disarm {g : Guarded} (h : guarded.step s.guarded .drop = some g) :
    SystemStep cli json b s .disarm { s with guarded := g, returned := true }
  | dispatch {msg : ZmqMessage} {w : State σ} (hp : s.loop.phase = .dispatching msg)
    (hret : Guards cli json b s.loop msg → s.returned = true)
    (h : (Worker.loop cli json b).step s.loop .dispatch = some w) :
    SystemStep cli json b s .dispatch { s with loop := w, returned := false }
  | monitor (h : ∀ due, s.nextCheck = some due → due ≤ s.loop.clock) :
    SystemStep cli json b s .monitor s.monitor
  | thread {g : Guarded} (h : guarded.step s.guarded .thread = some g) :
    SystemStep cli json b s .thread (s.watched g)
  | wakeup {g : Guarded} (h : guarded.step s.guarded .wakeup = some g) :
    SystemStep cli json b s .wakeup (s.watched g)

variable {σ : Type} {cli : Cli} {json : SerdeJson} {b : DetectorBackend σ} {s s' : System σ}
  {a : SystemAct} {acts : List SystemAct}

theorem system_step_cases (hs : (system cli json b).step s a = some s') :
    s.loop.phase.isExited = false ∧ SystemStep cli json b s a s' := by
  obtain ⟨hrun, h⟩ := Option.ite_none_left_eq_some.mp hs
  refine ⟨Bool.eq_false_iff.mpr hrun, ?_⟩
  split at h
  · obtain ⟨g, hg, rfl⟩ := Option.map_eq_some_iff.mp h
    exact .tick _ hg
  · rename_i hsleep
    obtain ⟨hown, h⟩ := Option.ite_none_right_eq_some.mp h
    obtain ⟨w, hw, rfl⟩ := Option.map_eq_some_iff.mp h
    exact .loop hsleep hown hw
  · rename_i hp hsleep
    cases h
    exact .recvError hsleep hp
  · rename_i hsleep
    obtain ⟨hwake, h⟩ := Option.ite_none_right_eq_some.mp h
    cases h
    exact .awake hsleep hwake
  · rename_i hp
    obtain ⟨⟨hguards, hret⟩, h⟩ := Option.ite_none_right_eq_some.mp h
    obtain ⟨g, hg, rfl⟩ := Option.map_eq_some_iff.mp h
    exact .arm hp hguards hret hg
  · obtain ⟨g, hg, rfl⟩ := Option.map_eq_some_iff.mp h
    exact .disarm hg
  · rename_i hp
    obtain ⟨hdone, h⟩ := Option.ite_none_left_eq_some.mp h
    obtain ⟨w, hw, rfl⟩ := Option.map_eq_some_iff.mp h
    exact .dispatch hp (fun hguards => Bool.of_not_eq_false fun hret => hdone ⟨hguards, hret⟩) hw
  · obtain ⟨hdue, h⟩ := Option.ite_none_right_eq_some.mp h
    cases h
    refine .monitor fun due hnext => ?_
    rw [hnext] at hdue
    exact of_decide_eq_true hdue
  · obtain ⟨g, hg, rfl⟩ := Option.map_eq_some_iff.mp h
    exact .thread hg
  · obtain ⟨g, hg, rfl⟩ := Option.map_eq_some_iff.mp h
    exact .wakeup hg
  · cases h

/-! ### How the parts hang together -/

/-- What the parts of a worker have to do with each other. -/
structure Coupled (cli : Cli) (json : SerdeJson) (b : DetectorBackend σ) (s : System σ) : Prop where
  guardedInv : GuardedInv s.guarded
  /-- A guarded call has the timeout of the command line. -/
  timeout : ∀ c, s.guarded.current = some c → c.timeout = cli.inferenceTimeoutMs
  /-- The loop is dispatching while the backend runs. -/
  guard : s.loop.phase.isExited = false → s.guarded.guard ≠ none →
    ∃ msg, s.loop.phase = .dispatching msg ∧ Guards cli json b s.loop msg ∧ s.returned = false
  /-- The loop sleeps only before it receives again. -/
  sleeping : s.loop.phase.isExited = false → s.sleepUntil ≠ none → s.loop.phase = .receiving
  thread : s.loop.phase.isExited = false → ∀ code, s.guarded.process.thread ≠ .exited code

/-- A check that does not end the process changes nothing. -/
theorem State.check_of_running {w : State σ} {site : CheckSite}
    (h : (w.check site).phase.isExited = false) : w.check site = w := by
  rcases w.check_cases site with ⟨-, hw⟩ | ⟨reason, -, hw⟩
  · exact hw
  · rw [hw] at h
    cases h

theorem System.watched_clock (s : System σ) (g : Guarded) :
    (s.watched g).loop.clock = s.loop.clock := by
  unfold System.watched
  split_ifs <;> rfl

theorem System.watched_of_running {g : Guarded}
    (h : (s.watched g).loop.phase.isExited = false) : (s.watched g).loop = s.loop := by
  unfold System.watched at h ⊢
  split_ifs at h ⊢
  · cases h
  · rfl

/-- Own steps of the loop take no time, and none is taken while a message is being dispatched. -/
theorem own_spec {w w' : State σ} {e : Event} (hown : e.isOwn = true)
    (hs : (loop cli json b).step w e = some w') :
    w'.clock = w.clock ∧ ∀ msg, w.phase ≠ .dispatching msg := by
  cases step_cases hs with
  | tick | recvError | dispatch | monitor | nativeTimeout => cases hown
  | recv msg hp | send _ hp => exact ⟨rfl, fun _ hd => by rw [hp] at hd; cases hd⟩
  | recvTimeout hp =>
    exact ⟨State.check_clock .., fun _ hd => by rw [hp] at hd; cases hd⟩
  | @start msg hp =>
    obtain ⟨-, -, -, -, hclock⟩ := w.start_spec json msg
    exact ⟨hclock, fun _ hd => by rw [hp] at hd; cases hd⟩
  | @update msg before sendOk hp =>
    obtain ⟨-, -, -, -, hclock⟩ := w.update_spec json msg sendOk
    exact ⟨hclock, fun _ hd => by rw [hp] at hd; cases hd⟩

theorem clock_of_dispatch {w w' : State σ} (hs : (loop cli json b).step w .dispatch = some w') :
    w'.clock = w.clock := by
  cases step_cases hs with
  | @dispatch msg hp =>
    rcases w.dispatched_cases json b msg with ⟨reply, -, hw⟩ | hw <;> rw [hw]

namespace Coupled

theorem initial (backend : σ) (g : Idle) : Coupled cli json b (.initial cli backend g) where
  guardedInv := g.guardedInv
  timeout _ h := by
    unfold Guarded.current at h
    rw [show (System.initial cli backend g).guarded.guard = none from g.guard] at h
    cases h
  guard _ h := absurd g.guard h
  sleeping _ h := absurd rfl h
  thread _ := g.running

variable (h : Coupled cli json b s) (hrun : s.loop.phase.isExited = false)
include h hrun

theorem guard_eq_none (hp : ∀ msg, s.loop.phase ≠ .dispatching msg) : s.guarded.guard = none := by
  by_contra hguard
  obtain ⟨msg, hd, -⟩ := h.guard hrun hguard
  exact hp msg hd

/-- A step of the loop or of the monitor. -/
theorem quiet (hguarded : s'.guarded = s.guarded)
    (hguard : s'.loop.phase.isExited = false → s.guarded.guard = none ∨
      (s'.loop.phase = s.loop.phase ∧ s'.loop.backend = s.loop.backend ∧
        s'.returned = s.returned))
    (hsleep : s'.loop.phase.isExited = false → s'.sleepUntil ≠ none →
      s'.loop.phase = .receiving) : Coupled cli json b s' := by
  refine ⟨hguarded ▸ h.guardedInv, ?_, fun hrun' hne => ?_, hsleep, fun _ => ?_⟩
  · rw [hguarded]
    exact h.timeout
  · rw [hguarded] at hne
    rcases hguard hrun' with hnone | ⟨hphase, hbackend, hret⟩
    · exact absurd hnone hne
    · unfold Guards
      rw [hphase, hbackend, hret]
      exact h.guard hrun hne
  · rw [hguarded]
    exact h.thread hrun

theorem loop {w : State σ} {e : Event} (hsleep : s.sleepUntil = none) (hown : e.isOwn = true)
    (hs : (loop cli json b).step s.loop e = some w) : Coupled cli json b { s with loop := w } := by
  obtain ⟨-, hp⟩ := own_spec hown hs
  exact h.quiet hrun rfl (fun _ => Or.inl (h.guard_eq_none hrun hp))
    fun _ hne => absurd hsleep hne

theorem dispatch {msg : ZmqMessage} {w : State σ} (hp : s.loop.phase = .dispatching msg)
    (hret : Guards cli json b s.loop msg → s.returned = true) :
    Coupled cli json b { s with loop := w, returned := false } := by
  have hguard : s.guarded.guard = none := by
    by_contra hne
    obtain ⟨msg', hd, hguards, hfalse⟩ := h.guard hrun hne
    cases hp.symm.trans hd
    rw [hret hguards] at hfalse
    cases hfalse
  refine h.quiet hrun rfl (fun _ => Or.inl hguard) fun _ hne => ?_
  have hreceiving := h.sleeping hrun hne
  rw [hp] at hreceiving
  cases hreceiving

theorem check (site : CheckSite) (nextCheck : Option ℕ) :
    Coupled cli json b { s with loop := s.loop.check site, nextCheck := nextCheck } := by
  refine h.quiet hrun rfl (fun hrun' => ?_) fun hrun' hne => ?_
  · rw [State.check_of_running hrun']
    exact Or.inr ⟨rfl, rfl, rfl⟩
  · rw [State.check_of_running hrun']
    exact h.sleeping hrun hne

theorem monitor : Coupled cli json b s.monitor := by
  have hsame : ∀ nextCheck, Coupled cli json b { s with nextCheck := nextCheck } := fun _ =>
    h.quiet hrun rfl (fun _ => Or.inr ⟨rfl, rfl, rfl⟩) h.sleeping
  unfold System.monitor
  split
  · exact hsame _
  · split_ifs
    · exact h.check hrun .monitor _
    · exact hsame _

theorem awake (hsleep : s.sleepUntil ≠ none) : Coupled cli json b s.awake := by
  have hguard := h.guard_eq_none hrun fun msg hd => by
    rw [h.sleeping hrun hsleep] at hd
    cases hd
  exact h.quiet hrun rfl (fun _ => Or.inl hguard) fun _ hne => absurd rfl hne

/-- The steps of the thread end the worker, or leave the loop alone. -/
theorem watched {g : Guarded} (hg : GuardedInv g) (hguard : g.guard = s.guarded.guard)
    (hcalls : g.process.calls = s.guarded.process.calls) : Coupled cli json b (s.watched g) := by
  have hcurrent : g.current = s.guarded.current := by
    unfold Guarded.current
    rw [hguard, hcalls]
  cases hex : g.process.isExited with
  | true =>
    simp only [System.watched, hex, if_true]
    exact ⟨hg, fun c hc => h.timeout c (hcurrent ▸ hc), nofun, nofun, nofun⟩
  | false =>
    simp only [System.watched, hex, Bool.false_eq_true, if_false]
    exact ⟨hg, fun c hc => h.timeout c (hcurrent ▸ hc),
      fun _ hne => h.guard hrun (hguard ▸ hne), h.sleeping, fun _ => isExited_eq_false.mp hex⟩

omit hrun in
/-- **Every step keeps the parts together.** -/
theorem step (hs : (system cli json b).step s a = some s') : Coupled cli json b s' := by
  obtain ⟨hrun, hstep⟩ := system_step_cases hs
  cases hstep with
  | @tick g ms hg =>
    have hinv := h.guardedInv.step hg
    obtain ⟨hex, htick⟩ := guarded_step_cases hg
    cases htick
    exact ⟨hinv, h.timeout, h.guard, h.sleeping, h.thread⟩
  | loop hsleep hown hw => exact h.loop hrun hsleep hown hw
  | recvError hsleep hp =>
    have hguard := h.guard_eq_none hrun fun msg hd => by
      rw [hp] at hd
      cases hd
    exact h.quiet hrun rfl (fun _ => Or.inl hguard) fun _ _ => hp
  | awake hsleep => exact h.awake hrun (hsleep ▸ Option.some_ne_none _)
  | @arm msg g hp hguards hret hg =>
    have hinv := h.guardedInv.step hg
    obtain ⟨hex, harm⟩ := guarded_step_cases hg
    cases harm with
    | @arm _ _ p hguard ht hcall =>
      obtain ⟨-, hthread, -, c, -, htimeout, -, -, hcalls⟩ := call_spec ht hcall
      refine ⟨hinv, fun c' hc' => ?_, fun _ _ => ⟨msg, hp, hguards, hret⟩, h.sleeping,
        fun _ code hcode => ?_⟩
      · simp only [Guarded.current, Guarded.after, hcalls, Option.bind_some] at hc'
        simp only [List.getElem?_concat_length, Option.some.injEq] at hc'
        exact hc' ▸ htimeout
      · exact ThreadPc.notifyOne_ne_exited (hex code) (hthread ▸ hcode)
  | @disarm g hg =>
    have hinv := h.guardedInv.step hg
    obtain ⟨hex, hdrop⟩ := guarded_step_cases hg
    cases hdrop with
    | @drop i p hguard hfinish =>
      obtain ⟨-, -, -, -, hthread, -, -⟩ := finish_spec hfinish
      refine ⟨hinv, fun _ hc' => (by cases hc'), fun _ hne => absurd rfl hne, h.sleeping,
        fun _ code hcode => ?_⟩
      rcases hthread with hsame | hnotified
      · exact hex code (hsame ▸ hcode)
      · exact ThreadPc.notifyOne_ne_exited (hex code) (hnotified ▸ hcode)
  | dispatch hp hret => exact h.dispatch hrun hp hret
  | monitor => exact h.monitor hrun
  | thread hg =>
    have hinv := h.guardedInv.step hg
    obtain ⟨-, hthread⟩ := guarded_step_cases hg
    cases hthread
    exact h.watched hrun hinv rfl rfl
  | wakeup hg =>
    have hinv := h.guardedInv.step hg
    obtain ⟨-, hwakeup⟩ := guarded_step_cases hg
    cases hwakeup
    exact h.watched hrun hinv rfl rfl

/-- **The thread ends the process only over the run of the backend**, and only when that has taken
the timeout of the command line. -/
theorem thread_exit {g : Guarded} (hg : guarded.step s.guarded .thread = some g)
    (hex : g.process.isExited = true) :
    ∃ msg c, s.loop.phase = .dispatching msg ∧ Guards cli json b s.loop msg ∧
      s.guarded.current = some c ∧
      c.armedAt + cli.inferenceTimeoutMs ≤ s.guarded.process.clock := by
  have hinv := h.guardedInv.step hg
  obtain ⟨-, hthread⟩ := guarded_step_cases hg
  cases hthread with
  | @thread pc hpc =>
    have hcode : ∃ code, pc = .exited code := by
      by_contra hne
      exact absurd hex (Bool.eq_false_iff.mp
        (isExited_eq_false.mpr fun code hcode => hne ⟨code, hcode⟩))
    obtain ⟨code, rfl⟩ := hcode
    obtain ⟨-, c, hc, hle⟩ := hinv.exited code rfl
    have hguard : s.guarded.guard ≠ none := fun hnone => by
      simp only [Guarded.current, Guarded.after, hnone, Option.bind_none] at hc
      cases hc
    obtain ⟨msg, hp, hguards, -⟩ := h.guard hrun hguard
    have htimeout := h.timeout c hc
    simp only [Guarded.after] at hle
    exact ⟨msg, c, hp, hguards, hc, by omega⟩

end Coupled

/-! ### The worker and the loop -/

/-- What the machine of the loop has come to when the worker is in `s`. It waits for the end of a
sleep to take the step of the error. -/
inductive Matches (s : System σ) : State σ → Prop
  | awake (h : s.sleepUntil = none) : Matches s s.loop
  | asleep {w : State σ}
    (hsleep : s.sleepUntil = some (w.clock + recvBackoffMs ((w.recvErrors + 1) % 2 ^ 32)))
    (hp : w.phase = .receiving) (hclock : w.clock ≤ s.loop.clock)
    (hloop : s.loop =
      { w with recvErrors := (w.recvErrors + 1) % 2 ^ 32, clock := s.loop.clock }) : Matches s w
  | stopped {w : State σ} (recvErrors : ℕ) (hsleep : s.sleepUntil ≠ none)
    (hexit : s.loop.phase.isExited = true)
    (hloop : s.loop = { w with recvErrors := recvErrors }) : Matches s w

variable {w : State σ}

theorem Matches.of_eq (h : Matches s w) (hloop : s'.loop = s.loop)
    (hsleep : s'.sleepUntil = s.sleepUntil) : Matches s' w := by
  cases h with
  | awake h => exact hloop ▸ .awake (hsleep.trans h)
  | asleep hs hp hclock heq => exact .asleep (hsleep.trans hs) hp (hloop ▸ hclock) (hloop ▸ heq)
  | stopped n hs hexit heq => exact .stopped n (hsleep ▸ hs) (hloop ▸ hexit) (hloop ▸ heq)

theorem loop_tick (hrun : w.phase.isExited = false) (ms : ℕ) :
    (loop cli json b).step w (.tick ms) = some { w with clock := w.clock + ms } := by
  unfold loop
  cases hp : w.phase <;> simp_all [Phase.isExited]

theorem loop_monitor (hrun : w.phase.isExited = false) (henabled : w.health.isEnabled = true) :
    (loop cli json b).step w .monitor = some (w.check .monitor) := by
  unfold loop
  cases hp : w.phase <;> simp_all [Phase.isExited]

theorem loop_recvError (hp : w.phase = .receiving) :
    (loop cli json b).step w .recvError = some w.handleRecvError := by
  simp only [loop, hp]

theorem loop_nativeTimeout {msg : ZmqMessage} (hp : w.phase = .dispatching msg)
    (hguards : Guards cli json b w msg) : (loop cli json b).step w .nativeTimeout =
      some { w with phase := .exited exitCodeNativeTimeout .nativeTimeout } := by
  simp only [loop, hp]
  exact if_pos hguards

/-- The end of a sleep, for the loop that waited for it. -/
theorem Matches.wake (h : Matches s w) {wake : ℕ} (hsleep : s.sleepUntil = some wake)
    (hrun : s.loop.phase.isExited = false) (hwake : wake ≤ s.loop.clock) :
    ∃ events w', (loop cli json b).exec w events = some w' ∧ Matches s.awake w' := by
  cases h with
  | awake hnone =>
    rw [hsleep] at hnone
    cases hnone
  | stopped _ _ hexit =>
    rw [hrun] at hexit
    cases hexit
  | asleep hs hp hclock hloop =>
    cases Option.some.inj (hsleep.symm.trans hs)
    have hslept : ({ w with clock := w.clock + (s.loop.clock -
        (w.clock + recvBackoffMs ((w.recvErrors + 1) % 2 ^ 32))) } : State σ).slept = s.loop := by
      rw [hloop]
      unfold State.slept
      simp only [State.mk.injEq, and_true, true_and]
      omega
    refine Machine.match_two (loop_tick (hp ▸ rfl) (s.loop.clock -
      (w.clock + recvBackoffMs ((w.recvErrors + 1) % 2 ^ 32)))) (loop_recvError hp) ?_
    rw [State.handleRecvError_eq, hslept]
    exact Matches.awake (s := s.awake) rfl

/-- A check does not look at the errors. -/
theorem State.check_with_recvErrors (w : State σ) (recvErrors : ℕ) (site : CheckSite) :
    { w with recvErrors := recvErrors }.check site =
      { w.check site with recvErrors := recvErrors } := by
  unfold State.check
  rcases w.health.check w.clock with ⟨_ | reason, health⟩ <;> rfl

/-- A check of the monitor during a sleep sees what it would see before the error. -/
theorem Matches.monitor (h : Matches s w) (hrun : s.loop.phase.isExited = false)
    (henabled : s.loop.health.isEnabled = true) (nextCheck : Option ℕ) :
    ∃ events w', (loop cli json b).exec w events = some w' ∧
      Matches { s with loop := s.loop.check .monitor, nextCheck := nextCheck } w' := by
  cases h with
  | awake hnone => exact Machine.match_one (loop_monitor hrun henabled) (.awake hnone)
  | stopped _ _ hexit =>
    rw [hrun] at hexit
    cases hexit
  | asleep hs hp hclock hloop =>
    rcases s.loop.check_cases .monitor with ⟨-, hw⟩ | ⟨reason, hreason, hw⟩
    · rw [hw]
      exact Machine.match_none (Matches.asleep hs hp hclock hloop)
    · -- the loop catches up with the clock first
      have hhealth : w.health = s.loop.health := by rw [hloop]
      refine Machine.match_two (loop_tick (hp ▸ rfl) (s.loop.clock - w.clock))
        (loop_monitor (hp ▸ rfl) (hhealth ▸ henabled)) (.stopped s.loop.recvErrors ?_ ?_ ?_)
      · exact hs ▸ Option.some_ne_none _
      · rw [hw]
        rfl
      · rw [Nat.add_sub_of_le hclock]
        have herrors : s.loop =
            { ({ w with clock := s.loop.clock } : State σ) with recvErrors := s.loop.recvErrors } := by
          rw [hloop]
        rw [← State.check_with_recvErrors]
        exact congrArg (State.check · .monitor) herrors

/-- **Every step of the worker is a run of the loop.** -/
theorem system_simulates : Machine.Simulates (system cli json b) (loop cli json b)
    fun s w => Coupled cli json b s ∧ Matches s w := by
  rintro s w a s' ⟨hcoupled, h⟩ hs
  suffices hmatch : ∃ events w', (loop cli json b).exec w events = some w' ∧ Matches s' w' by
    obtain ⟨events, w', hw, hm⟩ := hmatch
    exact ⟨events, w', hw, hcoupled.step hs, hm⟩
  obtain ⟨hrun, hstep⟩ := system_step_cases hs
  cases hstep with
  | tick ms hg =>
    cases h with
    | awake hnone => exact Machine.match_one (loop_tick hrun ms) (.awake hnone)
    | asleep hs hp hclock hloop =>
      refine Machine.match_none (.asleep hs hp (Nat.le_add_right_of_le hclock) ?_)
      generalize s.loop.clock = clock at hloop
      simp only [hloop]
    | stopped _ _ hexit =>
      rw [hrun] at hexit
      cases hexit
  | loop hsleep hown hw =>
    cases h with
    | awake => exact Machine.match_one hw (.awake hsleep)
    | asleep hs =>
      rw [hsleep] at hs
      cases hs
    | stopped _ _ hexit =>
      rw [hrun] at hexit
      cases hexit
  | recvError hsleep hp =>
    cases h with
    | awake => exact Machine.match_none (.asleep rfl hp le_rfl rfl)
    | asleep hs =>
      rw [hsleep] at hs
      cases hs
    | stopped _ _ hexit =>
      rw [hrun] at hexit
      cases hexit
  | awake hsleep hwake => exact h.wake hsleep hrun hwake
  | arm | disarm => exact Machine.match_none (h.of_eq rfl rfl)
  | dispatch hp hret hw =>
    cases h with
    | awake hnone => exact Machine.match_one hw (.awake hnone)
    | asleep hs hp' hclock hloop =>
      rw [hloop] at hp
      cases hp'.symm.trans hp
    | stopped _ _ hexit =>
      rw [hrun] at hexit
      cases hexit
  | monitor =>
    unfold System.monitor
    split
    · exact Machine.match_none (h.of_eq rfl rfl)
    · split_ifs with henabled
      · exact h.monitor hrun henabled _
      · exact Machine.match_none (h.of_eq rfl rfl)
  | @thread g hg =>
    unfold System.watched
    split_ifs with hex
    · obtain ⟨msg, -, hp, hguards, -⟩ := hcoupled.thread_exit hrun hg hex
      cases h with
      | awake hnone => exact Machine.match_one (loop_nativeTimeout hp hguards) (.awake hnone)
      | asleep hs hp' hclock hloop =>
        rw [hloop] at hp
        cases hp'.symm.trans hp
      | stopped _ _ hexit =>
        rw [hrun] at hexit
        cases hexit
    · exact Machine.match_none (h.of_eq rfl rfl)
  | wakeup hg =>
    obtain ⟨-, hwakeup⟩ := guarded_step_cases hg
    cases hwakeup
    exact Machine.match_none (h.of_eq rfl rfl)

/-- **Every run of the worker is a run of the loop.** -/
theorem exec_matches {backend : σ} {g : Idle}
    (h : (system cli json b).exec (.initial cli backend g) acts = some s) :
    ∃ events w, (loop cli json b).exec (.initial cli backend) events = some w ∧ Matches s w := by
  have hinitial : Coupled cli json b (.initial cli backend g) ∧
      Matches (.initial cli backend g) (.initial cli backend) := ⟨.initial backend g, .awake rfl⟩
  obtain ⟨events, w, hw, -, hmatch⟩ := system_simulates.exec hinitial h
  exact ⟨events, w, hw, hmatch⟩

theorem Matches.received_eq (h : Matches s w) : w.received = s.loop.received := by
  cases h with
  | awake => rfl
  | asleep _ _ _ hloop | stopped _ _ _ hloop => rw [hloop]

theorem Matches.sent_eq (h : Matches s w) : w.sent = s.loop.sent := by
  cases h with
  | awake => rfl
  | asleep _ _ _ hloop | stopped _ _ _ hloop => rw [hloop]

/-- The first error of `recv`, a model, and an inference whose run of the backend hangs. The monitor
is late for its first check by 1000. -/
def hungRun : List SystemAct :=
  [.monitor, .thread, .thread, .recvError, .awake, .loop (.recv [transferHeader "ssd", [1]]),
    .loop .start, .dispatch, .loop (.send .ok), .loop .update, .tick 5850,
    .loop (.recv [[], [1, 2]]), .loop .start, .arm, .thread, .thread, .thread, .tick 150, .monitor,
    .thread, .thread]

/-- A warmup of 40 ms. -/
def warmup : List GuardedAct :=
  [.thread, .thread, .arm "warmup inference" 150, .thread, .thread, .thread, .tick 40, .drop]

/-- The process watchdog that it leaves. -/
def warmedUp : Idle where
  state := (guarded.exec .initial warmup).getD .initial
  reached := ⟨warmup, by decide⟩
  guard := by decide
  running := isExited_eq_false.mp (by decide)

theorem exec_coupled {backend : σ} {g : Idle}
    (h : (system cli json b).exec (.initial cli backend g) acts = some s) : Coupled cli json b s :=
  Machine.exec_invariant (fun _ _ _ hI hs => hI.step hs) (.initial backend g) h

/-- **The process watchdog only takes steps of its own.** -/
theorem guarded_of_system_step (hs : (system cli json b).step s a = some s') :
    s'.guarded = s.guarded ∨ ∃ act, guarded.step s.guarded act = some s'.guarded := by
  obtain ⟨-, hstep⟩ := system_step_cases hs
  cases hstep with
  | loop | recvError | awake | dispatch => exact Or.inl rfl
  | monitor =>
    unfold System.monitor
    split <;> exact Or.inl rfl
  | tick _ hg | arm _ _ _ hg | disarm hg | thread hg | wakeup hg => exact Or.inr ⟨_, hg⟩

/-- The calls before the loop are over. -/
theorem exec_past {backend : σ} {g : Idle}
    (h : (system cli json b).exec (.initial cli backend g) acts = some s) :
    s.guarded.Past g.state.process.calls.length := by
  refine Machine.exec_invariant (I := fun s => s.guarded.Past g.state.process.calls.length)
    (fun s a s' hI hs => ?_) g.past h
  rcases guarded_of_system_step hs with hsame | ⟨act, hg⟩
  · exact hsame ▸ hI
  · exact hI.step hg

/-- A check is about progress. -/
theorem check_ne_nativeTimeout {w : State σ} {code : Int32} (hrun : w.phase.isExited = false)
    (site : CheckSite) : (w.check site).phase ≠ .exited code .nativeTimeout := by
  intro hp
  rcases w.check_cases site with ⟨-, hw⟩ | ⟨reason, -, hw⟩
  · rw [hw] at hp
    rw [hp] at hrun
    cases hrun
  · rw [hw] at hp
    cases hp

/-- Only the process watchdog ends the loop for a native call. -/
theorem eq_nativeTimeout_of_step {w w' : State σ} {e : Event} {code : Int32}
    (hs : (loop cli json b).step w e = some w') (hexit : w'.phase = .exited code .nativeTimeout) :
    e = .nativeTimeout := by
  cases step_cases hs with
  | nativeTimeout => rfl
  | tick ms hrun =>
    change w.phase = _ at hexit
    rw [hexit] at hrun
    cases hrun
  | monitor hrun => exact absurd hexit (check_ne_nativeTimeout hrun _)
  | recvTimeout hp => exact absurd hexit (check_ne_nativeTimeout (hp ▸ rfl) _)
  | recvError hp =>
    have hrun : w.slept.phase.isExited = false := hp ▸ rfl
    exact absurd hexit (check_ne_nativeTimeout hrun _)
  | recv | send => cases hexit
  | @start msg hp =>
    rw [(w.start_spec json msg).1] at hexit
    cases hexit
  | @dispatch msg hp =>
    rcases w.dispatched_cases json b msg with ⟨reply, -, hw⟩ | hw <;> rw [hw] at hexit <;>
      cases hexit
  | @update msg before sendOk hp =>
    rcases (w.update_spec json msg sendOk).1 with hp' | ⟨code', hp'⟩ <;> rw [hp'] at hexit <;>
      cases hexit

/-- **The process watchdog ends a worker only over an inference that has overrun**, once the worker is
in its loop: the step is that of its thread, the loop is dispatching an inference with a payload to a
backend that is ready, and the timeout of the command line has passed since that very run of the
backend was armed, however many runs there have been in the loop and however many warmups before. -/
theorem native_exit {backend : σ} {g : Idle} {code : Int32}
    (h : (system cli json b).exec (.initial cli backend g) acts = some s)
    (hs : (system cli json b).step s a = some s')
    (hexit : s'.loop.phase = .exited code .nativeTimeout) :
    a = .thread ∧ code = exitCodeNativeTimeout ∧
      ∃ msg i c, s.loop.phase = .dispatching msg ∧ Guards cli json b s.loop msg ∧
        g.state.process.calls.length ≤ i ∧ s.guarded.guard = some i ∧
        s.guarded.process.calls[i]? = some c ∧ c.finished = false ∧
        0 < cli.inferenceTimeoutMs ∧
        c.armedAt + cli.inferenceTimeoutMs ≤ s.guarded.process.clock := by
  have hcoupled := exec_coupled h
  have hpast := exec_past h
  obtain ⟨hrun, hstep⟩ := system_step_cases hs
  have hsame : s.loop.phase ≠ .exited code .nativeTimeout := fun hp => by
    rw [hp] at hrun
    cases hrun
  have hloop : ∀ {w e}, (loop cli json b).step s.loop e = some w → e ≠ .nativeTimeout →
      w.phase ≠ .exited code .nativeTimeout := fun hw hne hp =>
    hne (eq_nativeTimeout_of_step hw hp)
  cases hstep with
  | tick | recvError | arm | disarm => exact absurd hexit hsame
  | loop hsleep hown hw =>
    refine absurd hexit (hloop hw fun he => ?_)
    subst he
    cases hown
  | awake => exact absurd hexit (check_ne_nativeTimeout hrun _)
  | dispatch hp hret hw => exact absurd hexit (hloop hw (by simp))
  | monitor =>
    unfold System.monitor at hexit
    split at hexit
    · exact absurd hexit hsame
    · split_ifs at hexit
      · exact absurd hexit (check_ne_nativeTimeout hrun _)
      · exact absurd hexit hsame
  | wakeup hg =>
    obtain ⟨-, hwakeup⟩ := guarded_step_cases hg
    cases hwakeup
    exact absurd hexit hsame
  | @thread g' hg =>
    unfold System.watched at hexit
    split_ifs at hexit with hex
    · cases hexit
      obtain ⟨msg, c, hp, hguards, hc, hle⟩ := hcoupled.thread_exit hrun hg hex
      obtain ⟨i, hi, hcall⟩ := Option.bind_eq_some_iff.mp hc
      exact ⟨rfl, rfl, msg, i, c, hp, hguards, hpast.guard i hi, hi, hcall,
        hcoupled.guardedInv.unfinished c hc, hguards.1, hle⟩
    · exact absurd hexit hsame

/-- The thread ends the worker of that run in its next step. -/
theorem native_exit_hung :
    ∃ s s', (system cpuCli transferJson (tfliteBackend smallTflite)).exec
        (.initial cpuCli smallState warmedUp) hungRun = some s ∧
      (system cpuCli transferJson (tfliteBackend smallTflite)).step s .thread = some s' ∧
      ∃ code c, s'.loop.phase = .exited code .nativeTimeout ∧
        s.guarded.process.calls[1]? = some c ∧ c.armedAt + 150 ≤ s.guarded.process.clock := by
  have hrun : ((system cpuCli transferJson (tfliteBackend smallTflite)).exec
      (.initial cpuCli smallState warmedUp) hungRun).any (fun s => s.guarded.guard = some 1 ∧
        ((system cpuCli transferJson (tfliteBackend smallTflite)).step s .thread).any
          (fun s' => s'.guarded.process.isExited)) = true := by decide
  obtain ⟨s, hs, htest⟩ := (Option.any_eq_true ..).mp hrun
  obtain ⟨hguard, hany⟩ := of_decide_eq_true htest
  obtain ⟨s', hs', hex⟩ := (Option.any_eq_true ..).mp hany
  obtain ⟨hrunning, hstep⟩ := system_step_cases hs'
  cases hstep with
  | @thread g hg =>
    have hexit : (s.watched g).loop.phase = .exited exitCodeNativeTimeout .nativeTimeout :=
      congrArg State.phase (if_pos hex)
    obtain ⟨-, -, msg, i, c, -, -, -, hi, hc, -, -, hle⟩ := native_exit hs hs' hexit
    cases hguard.symm.trans hi
    exact ⟨s, _, hs, hs', _, c, hexit, hc, hle⟩

end FrigateZmqDetector.Worker
