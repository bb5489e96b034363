import FrigateZmqDetector.Worker.Replies
import FrigateZmqDetector.Worker.System

/-!
# A message in hand is answered

The loop shares a mutex with the thread of the process watchdog, which it takes twice for every
guarded run of the backend. `message_answered` says that the two never block each other for long.
Whatever they have been doing, and in whatever order they go on, the steps that need nothing from
outside come to an end after at most 41 of them, and then the message in hand has been answered or
the process has ended. The outside is time, a new message, the monitor and spurious wakeups.
-/

namespace FrigateZmqDetector.Worker

open Lib Protocol Tflite Watchdog

variable {σ : Type} {cli : Cli} {json : SerdeJson} {b : DetectorBackend σ} {s s' : System σ}
  {a : SystemAct} {acts acts' : List SystemAct}

/-- The steps that need nothing from outside: those of the loop but for `recv`, and those of the
thread. A send ends in one way or another. -/
def SystemAct.IsWork : SystemAct → Prop
  | .loop .start | .loop (.send _) | .loop .update | .arm | .disarm | .dispatch | .thread => True
  | _ => False

/-! ### Steps that are left -/

/-- The steps that the thread can take before it is blocked. -/
def threadRank (clock : ℕ) : ThreadPc → ℕ
  | .locking => 3
  | .testing => 2
  | .waiting wait => if 0 < wait then 1 else 5
  | .blocked (some wake) => if wake ≤ clock then 4 else 0
  | .blocked none | .exited _ => 0

/-- The steps that the loop can take before it is back at `recv`. -/
def loopRank (s : System σ) : ℕ :=
  match s.loop.phase with
  | .received _ => 6
  | .dispatching _ => if s.guarded.guard ≠ none then 4 else if s.returned then 3 else 5
  | .sending .. => 2
  | .updating .. => 1
  | .receiving | .exited .. => 0

/-- The loop can start the thread again, and then takes a step itself. -/
def rank (s : System σ) : ℕ :=
  if s.loop.phase.isExited then 0
  else 6 * loopRank s + threadRank s.guarded.process.clock s.guarded.process.thread

theorem threadRank_le (clock : ℕ) (pc : ThreadPc) : threadRank clock pc ≤ 5 := by
  unfold threadRank
  split <;> try split_ifs
  all_goals omega

theorem rank_le (s : System σ) : rank s ≤ 41 := by
  have hthread := threadRank_le s.guarded.process.clock s.guarded.process.thread
  have hloop : loopRank s ≤ 6 := by
    unfold loopRank
    split <;> try split_ifs
    all_goals omega
  unfold rank
  split_ifs <;> omega

/-- **The thread runs out of steps** when no time passes. -/
theorem threadRank_run {state : WatchdogState} {now : ℕ} {pc pc' : ThreadPc}
    (h : state.run now pc = some pc') : threadRank now pc' < threadRank now pc := by
  unfold WatchdogState.run at h
  split at h
  · cases h
    exact (by decide : 2 < 3)
  · split at h
    · cases h
      exact (by decide : 0 < 2)
    · split_ifs at h with hdue <;> cases h
      · exact (by decide : 0 < 2)
      · simp only [threadRank]
        rw [if_pos (by omega)]
        decide
  · rename_i wait
    cases h
    simp only [threadRank]
    split_ifs <;> omega
  · obtain ⟨hdue, h⟩ := Option.ite_none_right_eq_some.mp h
    cases h
    simp only [threadRank]
    rw [if_pos hdue]
    decide
  · cases h
  · cases h

/-- A step of the loop is worth more than all that the thread can do. -/
theorem rank_lt_of_loopRank (hrun : s.loop.phase.isExited = false)
    (h : s'.loop.phase.isExited = false → loopRank s' < loopRank s) (hpos : 0 < loopRank s) :
    rank s' < rank s := by
  have hthread := threadRank_le s'.guarded.process.clock s'.guarded.process.thread
  unfold rank
  rw [hrun, if_neg Bool.false_ne_true]
  cases hrun' : s'.loop.phase.isExited with
  | true =>
    rw [if_pos rfl]
    omega
  | false =>
    have hlt := h hrun'
    rw [if_neg Bool.false_ne_true]
    omega

theorem loopRank_dispatching {msg : ZmqMessage} (hp : s.loop.phase = .dispatching msg) :
    loopRank s = if s.guarded.guard ≠ none then 4 else if s.returned then 3 else 5 := by
  simp only [loopRank, hp]

/-- A step of the loop leads on. -/
theorem loopRank_loop {w : State σ} {e : Event} (ha : (SystemAct.loop e).IsWork)
    (hs : (loop cli json b).step s.loop e = some w) :
    0 < loopRank s ∧ (w.phase.isExited = false → loopRank { s with loop := w } < loopRank s) := by
  cases step_cases hs with
  | tick | monitor | recv | recvTimeout | recvError | dispatch | nativeTimeout => exact ha.elim
  | @start msg hp =>
    have hphase := (s.loop.start_spec json msg).1
    have hrank : loopRank s = 6 := by simp only [loopRank, hp]
    rw [hrank, loopRank_dispatching hphase]
    refine ⟨by decide, fun _ => ?_⟩
    split_ifs <;> decide
  | @send msg before reply outcome hp =>
    have hrank : loopRank s = 2 := by simp only [loopRank, hp]
    rw [hrank]
    exact ⟨by decide, fun _ => (by decide : 1 < 2)⟩
  | @update msg before sendOk hp =>
    have hrank : loopRank s = 1 := by simp only [loopRank, hp]
    rw [hrank]
    refine ⟨by decide, fun hrun => ?_⟩
    simp only [loopRank, State.update_receiving hrun]
    decide

/-- **Work uses up steps.** -/
theorem rank_step (h : Coupled cli json b s) (ha : a.IsWork)
    (hs : (system cli json b).step s a = some s') : rank s' < rank s := by
  obtain ⟨hrun, hstep⟩ := system_step_cases hs
  cases hstep with
  | tick | recvError | awake | monitor | wakeup => exact ha.elim
  | loop hsleep hown hw =>
    obtain ⟨hpos, hlt⟩ := loopRank_loop ha hw
    exact rank_lt_of_loopRank hrun hlt hpos
  | @arm msg g hp hguards hret hg =>
    obtain ⟨-, harm⟩ := guarded_step_cases hg
    cases harm with
    | @arm _ _ p hguard ht hcall =>
      have hrank : loopRank s = 5 := by
        rw [loopRank_dispatching hp, hguard, hret]
        rfl
      refine rank_lt_of_loopRank hrun (fun _ => ?_) (by omega)
      have hrank' : loopRank { s with
          guarded := s.guarded.after p (some s.guarded.process.calls.length) } = 4 :=
        loopRank_dispatching hp
      omega
  | @disarm g hg =>
    obtain ⟨-, hdrop⟩ := guarded_step_cases hg
    cases hdrop with
    | @drop i p hguard hfinish =>
      obtain ⟨msg, hp, -⟩ := h.guard hrun (hguard ▸ Option.some_ne_none i)
      have hrank : loopRank s = 4 := by
        rw [loopRank_dispatching hp, hguard]
        rfl
      refine rank_lt_of_loopRank hrun (fun _ => ?_) (by omega)
      have hrank' : loopRank { s with guarded := s.guarded.after p none, returned := true } = 3 :=
        loopRank_dispatching hp
      omega
  | @dispatch msg w hp hret hw =>
    have hge : 3 ≤ loopRank s := by
      rw [loopRank_dispatching hp]
      split_ifs <;> decide
    refine rank_lt_of_loopRank hrun (fun hrun' => ?_) (by omega)
    cases step_cases hw with
    | @dispatch msg' hp' =>
      rcases s.loop.dispatched_cases json b msg' with ⟨reply, -, hd⟩ | hd
      · have hphase : (s.loop.dispatched json b msg').phase = .sending msg' s.loop.backend reply := by
          rw [hd]
        have hrank : loopRank { s with loop := s.loop.dispatched json b msg', returned := false } =
            2 := by simp only [loopRank, hphase]
        omega
      · simp only [hd] at hrun'
        cases hrun'
  | @thread g hg =>
    obtain ⟨-, hthread⟩ := guarded_step_cases hg
    cases hthread with
    | @thread pc hpc =>
      have hlt := threadRank_run hpc
      unfold rank
      rw [hrun, if_neg Bool.false_ne_true]
      cases hrun' : (s.watched _).loop.phase.isExited with
      | true =>
        rw [if_pos rfl]
        omega
      | false =>
        have hloop := System.watched_of_running hrun'
        have hsame : loopRank (s.watched (s.guarded.after
            { s.guarded.process with thread := pc } s.guarded.guard)) = loopRank s := by
          simp only [loopRank, hloop]
          rfl
        rw [if_neg Bool.false_ne_true, hsame]
        exact Nat.add_lt_add_left hlt _

/-! ### Somebody can move -/

section Enabled

variable (h : Coupled cli json b s) (hrun : s.loop.phase.isExited = false)
include h hrun

/-- The loop has what it needs for its own steps, unless it is at `recv`. -/
theorem loop_enabled {w : State σ} {e : Event} (hp : s.loop.phase ≠ .receiving)
    (hown : e.isOwn = true) (hw : (loop cli json b).step s.loop e = some w) :
    ((system cli json b).step s (.loop e)).isSome = true := by
  have hsleep : s.sleepUntil = none := by
    by_contra hne
    exact hp (h.sleeping hrun hne)
  simp [system, hrun, hsleep, hown, hw]

/-- **The mutex blocks nobody for good**: the loop can arm, disarm or dispatch, or the thread can
move. -/
theorem dispatching_enabled {msg : ZmqMessage} (hp : s.loop.phase = .dispatching msg) :
    ∃ a : SystemAct, a.IsWork ∧ ((system cli json b).step s a).isSome = true := by
  have hex := h.thread hrun
  by_cases hdone : Guards cli json b s.loop msg ∧ s.returned = false
  · cases hmutex : s.guarded.process.thread.holdsMutex with
    | true =>
      refine ⟨.thread, trivial, ?_⟩
      simp [system, hp, Phase.isExited, thread_enabled hex hmutex]
    | false =>
      by_cases hguard : s.guarded.guard = none
      · refine ⟨.arm, trivial, ?_⟩
        have harm := arm_enabled hex hmutex hguard "inference" hdone.1.1
        simp [system, hp, Phase.isExited, hdone, harm]
      · refine ⟨.disarm, trivial, ?_⟩
        simp [system, hp, Phase.isExited, drop_enabled hex h.guardedInv hmutex hguard]
  · refine ⟨.dispatch, trivial, ?_⟩
    simp [system, hp, Phase.isExited, hdone, loop_dispatch hp]

/-- **A message in hand leaves something to do.** -/
theorem work_enabled (hp : s.loop.phase ≠ .receiving) :
    ∃ a : SystemAct, a.IsWork ∧ ((system cli json b).step s a).isSome = true := by
  cases hphase : s.loop.phase with
  | receiving => exact absurd hphase hp
  | exited code cause =>
    rw [hphase] at hrun
    cases hrun
  | received msg => exact ⟨.loop .start, trivial, loop_enabled h hrun hp rfl (loop_start hphase)⟩
  | dispatching msg => exact dispatching_enabled h hrun hphase
  | sending msg before reply =>
    have hw : (loop cli json b).step s.loop (.send .ok) = _ := loop_send hphase nofun
    exact ⟨.loop (.send .ok), trivial, loop_enabled h hrun hp rfl hw⟩
  | updating msg before sendOk =>
    exact ⟨.loop .update, trivial, loop_enabled h hrun hp rfl (loop_update hphase)⟩

end Enabled

/-! ### Every message in hand -/

/-- The replies sent so far, and the one that is due. -/
def State.replies (w : State σ) : ℕ := w.sent.length + w.phase.pending.toList.length

theorem loop_replies {w w' : State σ} {e : Event} (ha : (SystemAct.loop e).IsWork)
    (hs : (loop cli json b).step w e = some w') (hrun : w'.phase.isExited = false) :
    w'.received = w.received ∧ w'.replies = w.replies := by
  unfold State.replies
  cases step_cases hs with
  | tick | monitor | recv | recvTimeout | recvError | dispatch | nativeTimeout => exact ha.elim
  | @start msg hp =>
    obtain ⟨hphase, -, hreceived, hsent, -⟩ := w.start_spec json msg
    refine ⟨hreceived, ?_⟩
    rw [hphase, hsent, hp]
    rfl
  | send outcome hp =>
    refine ⟨rfl, ?_⟩
    rw [hp]
    exact List.length_append
  | @update msg before sendOk hp =>
    obtain ⟨-, -, hreceived, hsent, -⟩ := w.update_spec json msg sendOk
    have hphase : (w.update json msg sendOk).phase = .receiving := State.update_receiving hrun
    refine ⟨hreceived, ?_⟩
    rw [hphase, hsent, hp]
    rfl

/-- **Work loses no message**: what is in hand is answered, if the process goes on. -/
theorem replies_step (ha : a.IsWork) (hs : (system cli json b).step s a = some s')
    (hrun' : s'.loop.phase.isExited = false) :
    s'.loop.received = s.loop.received ∧ s'.loop.replies = s.loop.replies := by
  obtain ⟨-, hstep⟩ := system_step_cases hs
  cases hstep with
  | tick | recvError | awake | monitor | wakeup => exact ha.elim
  | loop hsleep hown hw => exact loop_replies ha hw hrun'
  | arm | disarm => exact ⟨rfl, rfl⟩
  | @dispatch msg w hp hret hw =>
    cases step_cases hw with
    | @dispatch msg' hp' =>
      rcases s.loop.dispatched_cases json b msg' with ⟨reply, -, hd⟩ | hd
      · unfold State.replies
        simp only [hd, hp']
        exact ⟨trivial, rfl⟩
      · simp only [hd] at hrun'
        cases hrun'
  | thread =>
    rw [System.watched_of_running hrun']
    exact ⟨rfl, rfl⟩

theorem replies_exec (hwork : ∀ a ∈ acts', a.IsWork)
    (h : (system cli json b).exec s acts' = some s') (hrun' : s'.loop.phase.isExited = false) :
    s'.loop.received = s.loop.received ∧ s'.loop.replies = s.loop.replies := by
  refine Machine.exec_induction (I := fun acts' s' => (∀ a ∈ acts', a.IsWork) →
    s'.loop.phase.isExited = false → s'.loop.received = s.loop.received ∧
      s'.loop.replies = s.loop.replies) (fun acts' m a m' hI hs hwork hrun => ?_)
    (fun _ _ => ⟨rfl, rfl⟩) h hwork hrun'
  obtain ⟨hwork, ha⟩ := List.forall_mem_append.mp hwork
  -- a step was taken, so the process had not ended before it
  obtain ⟨hreceived, hreplies⟩ := hI hwork (system_step_cases hs).1
  obtain ⟨hreceived', hreplies'⟩ := replies_step (ha a List.mem_cons_self) hs hrun
  exact ⟨hreceived'.trans hreceived, hreplies'.trans hreplies⟩

/-- **A message in hand is answered.** In any run of the worker, let the loop and the thread go on
without anything from outside, in any order: they take no more than 41 steps, and when none is left,
the process has ended, or the loop is back at `recv` and has sent a reply to the message that it had
in hand. -/
theorem message_answered {backend : σ} {g : Idle}
    (h : (system cli json b).exec (.initial cli backend g) acts = some s)
    (hwork : ∀ a ∈ acts', a.IsWork) (h' : (system cli json b).exec s acts' = some s') :
    acts'.length ≤ 41 ∧ ((system cli json b).Settled SystemAct.IsWork s' →
      s'.loop.phase.isExited = true ∨ (s'.loop.phase = .receiving ∧
        s'.loop.received = s.loop.received ∧
        s'.loop.sent.length = s.loop.sent.length + s.loop.phase.pending.toList.length)) := by
  have hcoupled := exec_coupled h
  have hlen := Machine.length_add_rank_le (fun _ _ _ hI hs => hI.step hs)
    (fun _ _ _ hI ha hs => rank_step hI ha hs) hcoupled hwork h'
  have hcoupled' := Machine.exec_invariant (fun _ _ _ hI hs => hI.step hs) hcoupled h'
  refine ⟨by have := rank_le s; omega, fun hsettled => ?_⟩
  cases hrun : s'.loop.phase.isExited with
  | true => exact Or.inl rfl
  | false =>
    have hp : s'.loop.phase = .receiving := by
      by_contra hp
      obtain ⟨a, ha, hsome⟩ := work_enabled hcoupled' hrun hp
      rw [hsettled a ha] at hsome
      cases hsome
    obtain ⟨hreceived, hreplies⟩ := replies_exec hwork h' hrun
    unfold State.replies at hreplies
    rw [hp] at hreplies
    exact Or.inr ⟨hp, hreceived, hreplies⟩

/-- The backend returns on the stroke of the deadline, with the thread already awake. -/
def returningRun : List SystemAct :=
  [.thread, .disarm, .dispatch, .loop (.send .ok), .loop .update, .thread, .thread]

/-- The second reply of this worker is sent, and the thread is idle. -/
theorem message_answered_returning :
    ∃ s s', (system cpuCli transferJson (tfliteBackend smallTflite)).exec
        (.initial cpuCli smallState warmedUp) (hungRun.take 19) = some s ∧
      (system cpuCli transferJson (tfliteBackend smallTflite)).exec s returningRun = some s' ∧
      s'.loop.phase = .receiving ∧ s'.loop.sent.length = 1 + 1 := by
  have hrun : ((system cpuCli transferJson (tfliteBackend smallTflite)).exec
      (.initial cpuCli smallState warmedUp) (hungRun.take 19)).any (fun s =>
        (s.loop.sent.length = 1 ∧ s.loop.phase.pending.toList.length = 1) ∧
        ((system cpuCli transferJson (tfliteBackend smallTflite)).exec s returningRun).any
          (fun s' => s'.loop.phase.isExited = false ∧
            ∀ a ∈ [SystemAct.loop .start, .loop (.send .ok), .loop (.send .failed),
              .loop (.send .timedOut), .loop .update, .arm, .disarm, .dispatch, .thread],
              ((system cpuCli transferJson (tfliteBackend smallTflite)).step s' a).isNone =
                true)) = true := by decide
  obtain ⟨s, hs, htest⟩ := (Option.any_eq_true ..).mp hrun
  obtain ⟨⟨hsent, hpending⟩, hany⟩ := of_decide_eq_true htest
  obtain ⟨s', hs', htest'⟩ := (Option.any_eq_true ..).mp hany
  obtain ⟨hrunning, hnone⟩ := of_decide_eq_true htest'
  have hwork : ∀ a ∈ returningRun, a.IsWork := by simp [returningRun, SystemAct.IsWork]
  obtain ⟨-, hanswered⟩ := message_answered hs hwork hs'
  have hsettled : (system cpuCli transferJson (tfliteBackend smallTflite)).Settled
      SystemAct.IsWork s' := fun a ha => by
    refine Option.isNone_iff_eq_none.mp (hnone a ?_)
    cases a with
    | arm | disarm | dispatch | thread => simp
    | loop e =>
      cases e with
      | start | update => simp
      | send outcome => cases outcome <;> simp
      | _ => exact ha.elim
    | _ => exact ha.elim
  rcases hanswered hsettled with hexit | ⟨hp, -, hreplies⟩
  · rw [hrunning] at hexit
    cases hexit
  · rw [hsent, hpending] at hreplies
    exact ⟨s, s', hs, hs', hp, hreplies⟩

end FrigateZmqDetector.Worker
