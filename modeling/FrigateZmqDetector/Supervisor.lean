import Mathlib.Algebra.Ring.Nat
import Mathlib.Order.MinMax
import Mathlib.Data.List.DropRight
import FrigateZmqDetector.Backend
import FrigateZmqDetector.Lib.Machine

/-!
# The supervisor

`supervise` in `main.rs` restarts the worker for ever, with a pause after every exit. The pause
starts at one second, doubles after every quick exit up to thirty seconds, and goes back to one
second after a long run; the two branches sleep on different sides of the update. `restart_delay`
gives the pause in closed form, from the runtimes alone.

`runtimes` and `sleeps` record the past and steer nothing. A duration counts nanoseconds.
-/

namespace FrigateZmqDetector.Supervisor

open Lib

abbrev Duration := ℕ

/-- `Duration::from_secs`. -/
def fromSecs (n : ℕ) : Duration := n * 1000000000

/-- Where the supervisor stands. -/
inductive Phase where
  | starting
  | spawning
  | waiting
  | failed (e : SidecarError)
  deriving DecidableEq, Repr

structure State where
  phase : Phase
  backoff : Duration
  runtimes : List Duration
  sleeps : List Duration
  deriving DecidableEq, Repr

/-- What `current_exe`, `spawn` and `wait` answer. An exit carries how long the worker ran. -/
inductive Event where
  | located
  | currentExeFailed (e : String)
  | spawned
  | spawnFailed (e : String)
  | exited (runtime : Duration)
  | waitFailed (e : String)
  deriving DecidableEq, Repr

/-- The runtime of the worker, for an exit. -/
def Event.runtime? : Event → Option Duration
  | .exited runtime => some runtime
  | _ => none

namespace State

def initial : State := ⟨.starting, fromSecs 1, [], []⟩

/-- `std::thread::sleep`. -/
def sleep (s : State) (d : Duration) : State := { s with sleeps := s.sleeps ++ [d] }

/-- The rest of the loop after an exit of the worker. -/
def exited (s : State) (runtime : Duration) : State :=
  let s := { s with phase := .spawning, runtimes := s.runtimes ++ [runtime] }
  if fromSecs 60 ≤ runtime then
    let s := { s with backoff := fromSecs 1 }
    s.sleep s.backoff
  else
    let s := s.sleep s.backoff
    { s with backoff := min (s.backoff * 2) (fromSecs 30) }

end State

/-- **The supervisor.** -/
def supervise : Machine State Event where
  step s e :=
    match s.phase, e with
    | .starting, .located => some { s with phase := .spawning }
    | .starting, .currentExeFailed e =>
      some { s with phase := .failed (.io s!"current_exe failed: {e}") }
    | .spawning, .spawned => some { s with phase := .waiting }
    | .spawning, .spawnFailed e =>
      some { s with phase := .failed (.io s!"spawn worker failed: {e}") }
    | .waiting, .exited runtime => some (s.exited runtime)
    | .waiting, .waitFailed e =>
      some { s with phase := .failed (.io s!"wait worker failed: {e}") }
    | _, _ => none

/-! ### The pause, from the runtimes -/

/-- The worker ran for less than a minute. -/
def quick (runtime : Duration) : Bool := runtime < fromSecs 60

/-- The number of quick exits in a row, up to the latest one. -/
def streak (runtimes : List Duration) : ℕ := (runtimes.rtakeWhile quick).length

/-- **The pause after the latest of these exits.** -/
def restartDelay (runtimes : List Duration) : Duration :=
  match streak runtimes with
  | 0 => fromSecs 1
  | j + 1 => fromSecs (min (2 ^ j) 30)

/-- The pauses after all of these exits. -/
def restartDelays (runtimes : List Duration) : List Duration :=
  (List.range runtimes.length).map fun n => restartDelay (runtimes.take (n + 1))

variable {s s' : State} {e : Event} {events : List Event} {rs rs' : List Duration} {r : Duration}

theorem fromSecs_mono {m n : ℕ} (h : m ≤ n) : fromSecs m ≤ fromSecs n :=
  Nat.mul_le_mul_right _ h

/-- The cap is no power of two, and doubling below it still gives the closed form. -/
theorem double_backoff (j : ℕ) :
    min (fromSecs (min (2 ^ j) 30) * 2) (fromSecs 30) = fromSecs (min (2 ^ (j + 1)) 30) := by
  have hpow : 2 ^ (j + 1) = 2 ^ j * 2 := pow_succ 2 j
  change min (min (2 ^ j) 30 * 1000000000 * 2) (30 * 1000000000) =
    min (2 ^ (j + 1)) 30 * (1000000000 : ℕ)
  omega

theorem streak_snoc (rs : List Duration) (r : Duration) :
    streak (rs ++ [r]) = if quick r then streak rs + 1 else 0 := by
  unfold streak
  rw [List.rtakeWhile_concat]
  split_ifs <;> simp

theorem streak_append_long (h : quick r = false) (rs rs' : List Duration) :
    streak (rs ++ r :: rs') = streak rs' := by
  induction rs' using List.reverseRecOn with
  | nil =>
    rw [streak_snoc, h]
    rfl
  | append_singleton rs' r' ih =>
    rw [← List.cons_append, ← List.append_assoc, streak_snoc, streak_snoc, ih]

theorem restartDelays_snoc (rs : List Duration) (r : Duration) :
    restartDelays (rs ++ [r]) = restartDelays rs ++ [restartDelay (rs ++ [r])] := by
  unfold restartDelays
  rw [List.length_append, List.length_singleton, List.range_succ, List.map_append]
  congr 1
  · apply List.map_congr_left
    intro n hn
    rw [List.take_append_of_le_length (Nat.succ_le_of_lt (List.mem_range.mp hn))]
  · rw [List.map_singleton, List.take_of_length_le (by simp)]

theorem getElem?_restartDelays {n : ℕ} (h : n < rs.length) :
    (restartDelays rs)[n]? = some (restartDelay (rs.take (n + 1))) := by
  simp [restartDelays, List.getElem?_range h]

theorem restartDelay_bounds (rs : List Duration) :
    fromSecs 1 ≤ restartDelay rs ∧ restartDelay rs ≤ fromSecs 30 := by
  unfold restartDelay
  cases streak rs with
  | zero => exact ⟨le_rfl, by decide⟩
  | succ j =>
    have hpos : 1 ≤ 2 ^ j := Nat.one_le_two_pow
    exact ⟨fromSecs_mono (le_min hpos (by decide)), fromSecs_mono (min_le_right _ _)⟩

/-- A quick exit is followed by a pause that is not shorter than the one before. -/
theorem restartDelay_mono (h : quick r = true) :
    restartDelay rs ≤ restartDelay (rs ++ [r]) := by
  unfold restartDelay
  rw [streak_snoc, if_pos h]
  cases streak rs with
  | zero => exact le_rfl
  | succ j =>
    have hpow : 2 ^ j ≤ 2 ^ (j + 1) := Nat.pow_le_pow_right (by decide) (Nat.le_succ j)
    exact fromSecs_mono (min_le_min hpow le_rfl)

theorem restartDelay_append_long (h : quick r = false) (rs rs' : List Duration) :
    restartDelay (rs ++ r :: rs') = restartDelay rs' := by
  unfold restartDelay
  rw [streak_append_long h]

/-! ### The invariant -/

theorem runtimes_of_exec {s₀ : State} (h : supervise.exec s₀ events = some s) :
    s.runtimes = s₀.runtimes ++ events.filterMap Event.runtime? := by
  induction events generalizing s₀ with
  | nil =>
    cases h
    exact (List.append_nil _).symm
  | cons e events ih =>
    obtain ⟨s₁, hs, hrest⟩ := Machine.exec_cons_eq_some.mp h
    have hstep : s₁.runtimes = s₀.runtimes ++ e.runtime?.toList := by
      obtain ⟨phase, backoff, runtimes, sleeps⟩ := s₀
      cases phase <;> cases e <;> cases hs
      case waiting.exited.refl runtime =>
        simp only [State.exited, State.sleep]
        split_ifs <;> rfl
      all_goals exact (List.append_nil _).symm
    rw [ih hrest, hstep, List.append_assoc]
    cases e <;> rfl

/-- The pause to come is that of a quick exit, and the pauses so far are those of the runtimes. -/
structure Inv (s : State) : Prop where
  backoff : s.backoff = fromSecs (min (2 ^ streak s.runtimes) 30)
  sleeps : s.sleeps = restartDelays s.runtimes

theorem Inv.initial : Inv .initial := ⟨rfl, rfl⟩

theorem Inv.exited (h : Inv s) (runtime : Duration) : Inv (s.exited runtime) := by
  unfold State.exited
  split_ifs with hlong
  · have hquick : quick runtime = false := decide_eq_false (Nat.not_lt.mpr hlong)
    have hstreak : streak (s.runtimes ++ [runtime]) = 0 := by rw [streak_snoc, hquick]; rfl
    refine ⟨?_, ?_⟩
    · simp only [State.sleep, hstreak]
      rfl
    · simp only [State.sleep, restartDelays_snoc, h.sleeps, restartDelay, hstreak]
  · have hquick : quick runtime = true := decide_eq_true (Nat.lt_of_not_le hlong)
    have hstreak : streak (s.runtimes ++ [runtime]) = streak s.runtimes + 1 := by
      rw [streak_snoc, if_pos hquick]
    refine ⟨?_, ?_⟩
    · simp only [State.sleep, hstreak, h.backoff]
      exact double_backoff _
    · simp only [State.sleep, restartDelays_snoc, h.sleeps, restartDelay, hstreak, h.backoff]

theorem Inv.step (h : Inv s) (hs : supervise.step s e = some s') : Inv s' := by
  obtain ⟨phase, backoff, runtimes, sleeps⟩ := s
  cases phase <;> cases e <;> cases hs
  case waiting.exited.refl runtime => exact h.exited runtime
  all_goals exact ⟨h.backoff, h.sleeps⟩

theorem step_exited (hs : supervise.step s (.exited r) = some s') :
    s.phase = .waiting ∧ s' = s.exited r := by
  obtain ⟨phase, backoff, runtimes, sleeps⟩ := s
  cases phase <;> cases hs
  exact ⟨rfl, rfl⟩

theorem State.exited_phase (s : State) (runtime : Duration) :
    (s.exited runtime).phase = .spawning := by
  unfold State.exited
  split_ifs <;> rfl

theorem exec_inv (h : supervise.exec .initial events = some s) : Inv s :=
  Machine.exec_invariant (fun _ _ _ hI hs => hI.step hs) Inv.initial h

/-- **The pauses of the supervisor.** After every exit it sleeps for one second if the worker ran
for a minute, and otherwise for a time that doubles along the streak of quick exits, up to thirty
seconds. So every pause is between one and thirty seconds, pauses do not get shorter along a
streak, and what follows a long run does not depend on what was before it. -/
theorem restart_delay (h : supervise.exec .initial events = some s) :
    s.runtimes = events.filterMap Event.runtime? ∧
    (s.sleeps.length = s.runtimes.length ∧
      ∀ n < s.runtimes.length, s.sleeps[n]? = some (restartDelay (s.runtimes.take (n + 1)))) ∧
    (∀ d ∈ s.sleeps, fromSecs 1 ≤ d ∧ d ≤ fromSecs 30) ∧
    (∀ n r d d', s.runtimes[n + 1]? = some r → quick r = true → s.sleeps[n]? = some d →
      s.sleeps[n + 1]? = some d' → d ≤ d') ∧
    ∀ n r, s.runtimes[n]? = some r → quick r = false → ∀ m < (s.runtimes.drop (n + 1)).length,
      s.sleeps[n + 1 + m]? = some (restartDelay ((s.runtimes.drop (n + 1)).take (m + 1))) := by
  have hinv := exec_inv h
  have hget : ∀ n < s.runtimes.length,
      s.sleeps[n]? = some (restartDelay (s.runtimes.take (n + 1))) := by
    intro n hn
    rw [hinv.sleeps]
    exact getElem?_restartDelays hn
  refine ⟨runtimes_of_exec h, ⟨?_, hget⟩, fun d hd => ?_, fun n r d d' hr hquick hd hd' => ?_,
    fun n r hr hlong m hm => ?_⟩
  · rw [hinv.sleeps, restartDelays, List.length_map, List.length_range]
  · rw [hinv.sleeps] at hd
    obtain ⟨n, -, rfl⟩ := List.mem_map.mp hd
    exact restartDelay_bounds _
  · obtain ⟨hlt, -⟩ := List.getElem?_eq_some_iff.mp hr
    rw [hget n (by omega), Option.some.injEq] at hd
    rw [hget (n + 1) hlt, List.take_add_one, hr, Option.some.injEq] at hd'
    rw [← hd, ← hd']
    exact restartDelay_mono hquick
  · obtain ⟨hlt, hrn⟩ := List.getElem?_eq_some_iff.mp hr
    rw [List.length_drop] at hm
    rw [hget (n + 1 + m) (by omega)]
    have hsplit : s.runtimes.take (n + 1 + m + 1) =
        s.runtimes.take n ++ r :: (s.runtimes.drop (n + 1)).take (m + 1) := by
      rw [show n + 1 + m + 1 = n + 1 + (m + 1) by omega, List.take_add, List.take_add_one, hr,
        List.append_assoc]
      rfl
    rw [hsplit, restartDelay_append_long hlong]

/-- A worker that crashes seven times, runs for a minute and crashes again. -/
theorem restart_delay_crashes :
    let exits := (List.replicate 7 (fromSecs 2) ++ [fromSecs 60, fromSecs 3]).flatMap fun r =>
      [Event.spawned, .exited r]
    ∃ s, supervise.exec .initial (.located :: exits) = some s ∧
      s.sleeps = [1, 2, 4, 8, 16, 30, 30, 1, 1].map fromSecs ∧
      ∀ d ∈ s.sleeps, fromSecs 1 ≤ d ∧ d ≤ fromSecs 30 := by
  intro exits
  have hrun : (supervise.exec .initial (.located :: exits)).any
      (fun s => s.sleeps = [1, 2, 4, 8, 16, 30, 30, 1, 1].map fromSecs) = true := by decide
  obtain ⟨s, hs, hsleeps⟩ := (Option.any_eq_true ..).mp hrun
  exact ⟨s, hs, of_decide_eq_true hsleeps, (restart_delay hs).2.2.1⟩

/-! ### How often the worker is restarted -/

namespace State

/-- The time that went into the runs of the worker and the pauses between them. -/
def elapsed (s : State) : ℕ := s.runtimes.sum + s.sleeps.sum

/-- What the pauses of a streak still owe, in seconds, for each of them to count as fifteen. -/
def owed : ℕ → ℕ
  | 0 => 45
  | 1 => 31
  | 2 => 18
  | 3 => 7
  | _ => 0

def credit (s : State) : ℕ := fromSecs (owed (streak s.runtimes))

end State

theorem owed_le (j : ℕ) : State.owed j ≤ 45 := by
  unfold State.owed
  split <;> decide

theorem State.credit_le (s : State) : s.credit ≤ fromSecs 45 := fromSecs_mono (owed_le _)

/-- The first four pauses of a streak are short, and the fifth is sixteen seconds. -/
theorem owed_succ (j : ℕ) : 15 + State.owed (j + 1) ≤ min (2 ^ j) 30 + State.owed j := by
  match j with
  | 0 | 1 | 2 | 3 => decide
  | j + 4 =>
    have hpow : 2 ^ (j + 4) = 2 ^ j * 16 := pow_add 2 j 4
    have hpos : 1 ≤ 2 ^ j := Nat.one_le_two_pow
    show 15 + 0 ≤ min (2 ^ (j + 4)) 30 + 0
    omega

/-- **A restart takes fifteen seconds, or uses up credit.** -/
theorem Inv.paid (h : Inv s) (runtime : Duration) :
    s.elapsed + fromSecs 15 + (s.exited runtime).credit ≤ (s.exited runtime).elapsed + s.credit := by
  unfold State.exited State.elapsed State.credit
  split_ifs with hlong
  · have hquick : quick runtime = false := decide_eq_false (Nat.not_lt.mpr hlong)
    have hstreak : streak (s.runtimes ++ [runtime]) = 0 := by rw [streak_snoc, hquick]; rfl
    have hlong' : @LE.le ℕ _ (fromSecs 60) runtime := hlong
    have howed : State.owed 0 = 45 := rfl
    simp only [State.sleep, hstreak, howed, List.sum_append, List.sum_singleton]
    unfold fromSecs at hlong' ⊢
    omega
  · have hquick : quick runtime = true := decide_eq_true (Nat.lt_of_not_le hlong)
    have hstreak : streak (s.runtimes ++ [runtime]) = streak s.runtimes + 1 := by
      rw [streak_snoc, if_pos hquick]
    simp only [State.sleep, hstreak, h.backoff, List.sum_append, List.sum_singleton]
    have howed := owed_succ (streak s.runtimes)
    unfold fromSecs
    omega

/-- The latest pause. -/
def State.pause (s : State) : ℕ := s.sleeps.getLastD 0

theorem Inv.pause_eq (h : Inv s) : s.pause = 0 ∨ ∃ k ≤ 30, s.pause = fromSecs k := by
  unfold State.pause
  rw [h.sleeps]
  induction s.runtimes using List.reverseRecOn with
  | nil => exact Or.inl rfl
  | append_singleton rs r =>
    rw [restartDelays_snoc, List.getLastD_concat]
    refine Or.inr ?_
    unfold restartDelay
    cases streak (rs ++ [r]) with
    | zero => exact ⟨1, by decide, rfl⟩
    | succ j => exact ⟨_, min_le_right _ _, rfl⟩

/-- An exit adds a run and a pause. -/
theorem State.exited_elapsed (s : State) (runtime : Duration) :
    (s.exited runtime).elapsed = s.elapsed + runtime + (s.exited runtime).pause := by
  unfold State.exited State.elapsed State.pause
  split_ifs <;> simp only [State.sleep, List.sum_append, List.sum_singleton, List.getLastD_concat] <;>
    omega

/-- The other steps take no time that is counted. -/
theorem step_elapsed (he : e.runtime? = none) (hs : supervise.step s e = some s') :
    s'.elapsed = s.elapsed := by
  obtain ⟨phase, backoff, runtimes, sleeps⟩ := s
  cases phase <;> cases e <;> cases hs
  case waiting.exited.refl => cases he
  all_goals rfl

theorem Inv.exec_paid {events' : List Event} (h : Inv s) (h' : supervise.exec s events' = some s') :
    Inv s' ∧ s.elapsed + fromSecs 15 * (events'.filterMap Event.runtime?).length + s'.credit ≤
      s'.elapsed + s.credit := by
  refine Machine.exec_induction (I := fun es s' => Inv s' ∧
    s.elapsed + fromSecs 15 * (es.filterMap Event.runtime?).length + s'.credit ≤
      s'.elapsed + s.credit) (fun es s₁ e s₂ hI hs => ⟨hI.1.step hs, ?_⟩) ⟨h, le_rfl⟩ h'
  have hle := hI.2
  rw [List.filterMap_append, List.length_append]
  obtain ⟨phase, backoff, runtimes, sleeps⟩ := s₁
  cases phase <;> cases e <;> cases hs
  case waiting.exited.refl runtime =>
    have hpaid := hI.1.paid runtime
    have hone : ([Event.exited runtime].filterMap Event.runtime?).length = 1 := rfl
    rw [hone, Nat.mul_succ]
    omega
  all_goals exact hle

/-- **Restarts are rare.** From any state of any run on, the worker is restarted at most three times
more often than once for every fifteen seconds of its runs and pauses. -/
theorem restart_rate {events' : List Event} (h : supervise.exec .initial events = some s)
    (h' : supervise.exec s events' = some s') :
    s.elapsed + fromSecs 15 * (events'.filterMap Event.runtime?).length ≤
      s'.elapsed + fromSecs 45 := by
  obtain ⟨-, hpaid⟩ := (exec_inv h).exec_paid h'
  have hcredit := s.credit_le
  omega

/-- Fifteen crashes at the start take three minutes. -/
theorem restart_rate_crashes :
    ∃ s, supervise.exec .initial
        (.located :: (List.replicate 15 [Event.spawned, .exited 0]).flatten) = some s ∧
      fromSecs 180 ≤ s.elapsed := by
  have hrun : (supervise.exec ⟨.spawning, fromSecs 1, [], []⟩
      (List.replicate 15 [Event.spawned, .exited 0]).flatten).isSome = true := by decide
  obtain ⟨s, hs⟩ := Option.isSome_iff_exists.mp hrun
  have hstart : supervise.exec .initial [.located] = some ⟨.spawning, fromSecs 1, [], []⟩ := rfl
  have hrate := restart_rate hstart hs
  have hexits : ((List.replicate 15 [Event.spawned, .exited 0]).flatten.filterMap
      Event.runtime?).length = 15 := by decide
  have hzero : State.elapsed ⟨.spawning, fromSecs 1, [], []⟩ = 0 := rfl
  rw [hexits, hzero] at hrate
  refine ⟨s, Machine.exec_cons_eq_some.mpr ⟨_, rfl, hs⟩, ?_⟩
  have hsum : fromSecs 180 + fromSecs 45 = fromSecs 15 * 15 := rfl
  rw [Nat.zero_add, ← hsum] at hrate
  exact Nat.le_of_add_le_add_right hrate

end FrigateZmqDetector.Supervisor
