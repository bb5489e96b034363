import FrigateZmqDetector.Lib.Latch
import FrigateZmqDetector.Watchdog.Race

/-!
# The fired flag

`check` uses one flag both as a lock around its snapshot and as the latch that it has fired, and
losers of the swap set it like the winner. Over every interleaving it keeps the meaning of
`Lib.Latched`: it is set exactly while a check is between its swap and its clearing store, or has
returned a reason. So a run returns at most one reason (`fired_latch`), and a check that returns
none leaves the next one free to look.
-/

namespace FrigateZmqDetector.Watchdog

open Lib

variable {N M L : ℕ} {s s' : Shared} {a : Act} {acts acts' : List Act} {id : ℕ}

/-- The check has won its swap and has not cleared the flag, or has returned a reason. -/
def CheckPc.Holds : CheckPc → Prop
  | .idle => False
  | .loading _ _ | .clearing | .fired _ _ => True

theorem CheckPc.holds_iff {pc : CheckPc} : pc.Holds ↔ pc ≠ .idle := by
  cases pc <;> simp [CheckPc.Holds]

/-- The flag is held by the checks. -/
def FlagInv (s : Shared) : Prop := Latched s.w.fired fun id => (s.checks id).Holds

theorem decided_holds (w : ProgressWatchdog) (snap : HealthSnapshot) : (decided w snap).Holds := by
  unfold decided
  cases snap.reason w <;> exact trivial

theorem loopOp_fired {ok : Bool} (h : loopOp s ok = some s') :
    s'.w.fired = s.w.fired ∧ s'.checks = s.checks := by
  unfold loopOp at h
  split at h <;> cases h <;> exact ⟨rfl, rfl⟩

/-- A check that moves and keeps what it holds. -/
theorem FlagInv.setCheck_keep (h : FlagInv s) {w' : ProgressWatchdog} {pc' : CheckPc}
    (hf : w'.fired = s.w.fired) (hpc : pc'.Holds ↔ (s.checks id).Holds) :
    FlagInv (s.setCheck id w' pc') := by
  unfold FlagInv
  change Latched w'.fired fun j => (Function.update s.checks id pc' j).Holds
  rw [hf]
  refine h.keep fun j => ?_
  by_cases hj : j = id
  · subst hj
    rw [Function.update_self, hpc]
  · rw [Function.update_of_ne hj]

theorem FlagInv.check {w' : ProgressWatchdog} {pc' : CheckPc} (h : FlagInv s)
    (hs : checkOp s.w s.clock (s.checks id) = some (w', pc')) : FlagInv (s.setCheck id w' pc') := by
  have hother : ∀ (pc : CheckPc) j, j ≠ id →
      ((Function.update s.checks id pc j).Holds ↔ (s.checks j).Holds) := by
    intro pc j hj
    rw [Function.update_of_ne hj]
  cases hpc : s.checks id with
  | idle =>
    rw [hpc] at hs
    cases hs
    cases hf : s.w.fired with
    | true => exact h.setCheck_keep hf.symm (by rw [hpc]; rfl)
    | false =>
      unfold FlagInv at h
      rw [hf] at h
      refine h.acquire (i := id) ?_ (hother _)
      simp only [Shared.setCheck, Function.update_self]
      exact trivial
  | loading i snap =>
    rw [hpc] at hs
    cases hs
    refine h.setCheck_keep rfl ?_
    rw [hpc]
    refine iff_of_true ?_ trivial
    split_ifs
    · exact trivial
    · exact decided_holds _ _
  | clearing =>
    rw [hpc] at hs
    cases hs
    refine Latched.release h (i := id) ?_ ?_ (hother _)
    · rw [hpc]
      exact trivial
    · simp only [Shared.setCheck, Function.update_self]
      exact not_false
  | fired r n =>
    rw [hpc] at hs
    cases hs

theorem FlagInv.step (h : FlagInv s) (hs : interleaving.step s a = some s') : FlagInv s' := by
  cases a with
  | tick ms =>
    cases hs
    exact h
  | loop ok =>
    obtain ⟨hfired, hchecks⟩ := loopOp_fired hs
    unfold FlagInv
    rw [hfired, hchecks]
    exact h
  | check id =>
    obtain ⟨⟨w', pc'⟩, hop, rfl⟩ := Option.map_eq_some_iff.mp hs
    exact h.check hop

theorem FlagInv.initial : FlagInv (.initial N M L) := Latched.clear fun _ => not_false

/-- **The flag keeps its meaning in every run.** -/
theorem exec_flagInv (h : interleaving.exec (.initial N M L) acts = some s) : FlagInv s :=
  Machine.exec_invariant (fun _ _ _ hI hstep => hI.step hstep) FlagInv.initial h

/-- Nobody is checking, and nobody has fired. -/
theorem FlagInv.fired_eq_false (h : FlagInv s) (hidle : ∀ id, s.checks id = .idle) :
    s.w.fired = false := by
  cases hf : s.w.fired with
  | false => rfl
  | true =>
    obtain ⟨i, hi⟩ := h.flag_iff.mp hf
    exact absurd (hidle i) (CheckPc.holds_iff.mp hi)

/-! ### A reason is final -/

theorem step_fired {r : Reason} {n : ℕ} (h : s.checks id = .fired r n)
    (hs : interleaving.step s a = some s') : s'.checks id = .fired r n := by
  cases a with
  | tick ms =>
    cases hs
    exact h
  | loop ok => rw [(loopOp_fired hs).2, h]
  | check j =>
    obtain ⟨⟨w', pc'⟩, hop, rfl⟩ := Option.map_eq_some_iff.mp hs
    by_cases hj : id = j
    · subst hj
      rw [h] at hop
      cases hop
    · simp only [Shared.setCheck, Function.update_of_ne hj, h]

theorem exec_fired {r : Reason} {n : ℕ} (h : s.checks id = .fired r n)
    (hs : interleaving.exec s acts = some s') : s'.checks id = .fired r n :=
  Machine.exec_invariant (I := fun s => s.checks id = .fired r n)
    (fun _ _ _ hI hstep => step_fired hI hstep) h hs

/-- A check that starts while the flag is set returns at once and changes nothing. -/
theorem step_idle_of_fired (h : s.checks id = .idle) (hf : s.w.fired = true) :
    interleaving.step s (.check id) = some s := by
  have hw : { s.w with fired := true } = s.w := by rw [← hf]
  have hchecks : Function.update s.checks id .idle = s.checks := by
    rw [← h, Function.update_eq_self]
  rw [step_check h, checkOp, hw, if_pos hf, Option.map_some, Shared.setCheck, hchecks]

/-- A check that starts while the flag is clear is going to load the whole snapshot. -/
theorem step_idle_of_clear (h : s.checks id = .idle) (hf : s.w.fired = false) :
    interleaving.step s (.check id) =
      some (s.setCheck id { s.w with fired := true } (.loading 0 .blank)) := by
  rw [step_check h, checkOp, hf]
  rfl

/-- **At most one check fires, and a check that does not fire disables nothing.** -/
theorem fired_latch (h : interleaving.exec (.initial N M L) acts = some s) :
    (∀ i r n, s.checks i = .fired r n →
      ∀ acts' s', interleaving.exec s acts' = some s' →
        s'.checks i = .fired r n ∧
        (∀ j r' n', s'.checks j = .fired r' n' → j = i) ∧
        (∀ j, s'.checks j = .idle → interleaving.step s' (.check j) = some s')) ∧
    (s.w.fired = true ↔ ∃ id, (∃ i snap, s.checks id = .loading i snap) ∨
      s.checks id = .clearing ∨ ∃ r n, s.checks id = .fired r n) ∧
    ((∀ id, s.checks id = .idle) → ∀ id,
      interleaving.step s (.check id) =
        some (s.setCheck id { s.w with fired := true } (.loading 0 .blank)) ∧
      ∃ k, interleaving.exec s (List.replicate k (.check id)) =
        some (s.setCheck id (s.w.check s.clock).2
          (((s.w.snapshot s.clock).reason s.w).elim .idle fun r => .fired r s.clock))) := by
  refine ⟨fun i r n hi acts' s' hs' => ?_, ?_, fun hidle id => ?_⟩
  · have hs : interleaving.exec (.initial N M L) (acts ++ acts') = some s' := by
      rw [Machine.exec_append, h, Option.bind_some, hs']
    have hi' : s'.checks i = .fired r n := exec_fired hi hs'
    have hheld : (s'.checks i).Holds := by
      rw [hi']
      exact trivial
    have hinv := exec_flagInv hs
    refine ⟨hi', fun j r' n' hj => ?_, fun j hj => ?_⟩
    · refine hinv.unique j i ?_ hheld
      rw [hj]
      exact trivial
    · exact step_idle_of_fired hj (hinv.flag_iff.mpr ⟨i, hheld⟩)
  · rw [(exec_flagInv h).flag_iff]
    refine exists_congr fun id => ?_
    cases s.checks id <;> simp [CheckPc.Holds]
  · have hf : s.w.fired = false := (exec_flagInv h).fired_eq_false hidle
    refine ⟨step_idle_of_clear (hidle id) hf, ?_⟩
    obtain ⟨k, hk⟩ := exec_check (hidle id)
    rw [ProgressWatchdog.check_of_not_fired hf] at hk
    exact ⟨k, hk⟩

/-- Two checks overlap after a request has been stuck for a second: the first wins and fires, the
second is turned away, and so is a third. -/
theorem fired_latch_overlap :
    let acts : List Act := List.replicate 4 (.loop true) ++
      [.tick 1001, .check 0, .check 1, .check 0, .check 1] ++ List.replicate 7 (.check 0)
    ∃ s, interleaving.exec (.initial 1 0 0) acts = some s ∧
      s.checks 0 = .fired .noSuccess 1001 ∧ interleaving.step s (.check 2) = some s := by
  intro acts
  have hrun : (interleaving.exec (.initial 1 0 0) acts).any
      (fun s => s.checks 0 = .fired .noSuccess 1001 ∧ s.checks 2 = .idle) = true := by decide
  obtain ⟨s, hs, hchecks⟩ := (Option.any_eq_true ..).mp hrun
  obtain ⟨hfired, hidle⟩ := of_decide_eq_true hchecks
  exact ⟨s, hs, hfired, ((fired_latch hs).1 0 _ _ hfired [] s rfl).2.2 2 hidle⟩

end FrigateZmqDetector.Watchdog
