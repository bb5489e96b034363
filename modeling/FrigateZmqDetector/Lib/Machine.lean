import Mathlib.Tactic.TypeStar
import Mathlib.Data.List.Basic

/-!
# Machines that take one labelled step at a time

A machine is a partial step function: `step s l = none` when the label `l` is not enabled in `s`.
The label carries whatever the machine does not decide itself (which thread moves, what a foreign
call answers, what the clock shows), so a run is nothing but a list of labels.

* `exec_invariant`: what holds at the start and is kept by every step holds after every run, and
  `exec_induction` the same of what also speaks of the run itself;
* `Every R s ls`: every step of the run `ls` from `s` satisfies the three-place relation `R`;
* `Always P s ls`: every state of the run `ls` from `s` satisfies `P`;
* `Settled A s`: no label of the kind `A` is enabled in `s`; `length_add_rank_le` bounds the runs of
  such labels by a rank;
* `exec_observe`: a history variable sees every step and steers nothing;
* `every_congr`: two conditions that agree on every step from a state of the invariant agree on
  whole runs, so an exact condition for one step is an exact condition for a run.
-/

namespace FrigateZmqDetector.Lib

structure Machine (S L : Type*) where
  /-- The state after a step, or `none` when the label is not enabled. -/
  step : S → L → Option S

namespace Machine

variable {S L : Type*} (M : Machine S L)

/-! ### Runs -/

/-- The state after the labels of a run, from left to right. -/
def exec (s : S) : List L → Option S
  | [] => some s
  | l :: ls => (M.step s l).bind fun s' => exec s' ls

/-- `s` is the state after some run from `s₀`. -/
def Reachable (s₀ s : S) : Prop := ∃ ls, M.exec s₀ ls = some s

variable {M} {s₀ s s' : S} {l : L} {ls ls' : List L}

@[simp] theorem exec_nil : M.exec s [] = some s := rfl

theorem exec_cons : M.exec s (l :: ls) = (M.step s l).bind fun s' => M.exec s' ls := rfl

theorem exec_cons_eq_some :
    M.exec s₀ (l :: ls) = some s ↔ ∃ m, M.step s₀ l = some m ∧ M.exec m ls = some s := by
  rw [exec_cons, Option.bind_eq_some_iff]

theorem exec_append :
    M.exec s (ls ++ ls') = (M.exec s ls).bind fun m => M.exec m ls' := by
  induction ls generalizing s with
  | nil => rfl
  | cons l ls ih =>
    rw [List.cons_append, exec_cons, exec_cons, Option.bind_assoc]
    exact congrArg _ (funext fun m => ih)

theorem exec_snoc :
    M.exec s₀ (ls ++ [l]) = some s ↔ ∃ m, M.exec s₀ ls = some m ∧ M.step m l = some s := by
  simp only [exec_append, Option.bind_eq_some_iff, exec_cons_eq_some, exec_nil, Option.some.injEq,
    exists_eq_right]

/-! ### Invariants -/

/-- **The invariant rule.** -/
theorem exec_invariant {I : S → Prop} (hstep : ∀ s l s', I s → M.step s l = some s' → I s')
    (h₀ : I s₀) (h : M.exec s₀ ls = some s) : I s := by
  induction ls generalizing s₀ with
  | nil =>
    rw [exec_nil, Option.some.injEq] at h
    exact h ▸ h₀
  | cons l ls ih =>
    obtain ⟨m, hm, hrest⟩ := exec_cons_eq_some.mp h
    exact ih (hstep _ _ _ h₀ hm) hrest

/-- **The invariant rule with the labels so far.** -/
theorem exec_induction {I : List L → S → Prop}
    (hstep : ∀ ls s l s', I ls s → M.step s l = some s' → I (ls ++ [l]) s')
    (h₀ : I [] s₀) (h : M.exec s₀ ls = some s) : I ls s := by
  induction ls generalizing s₀ I with
  | nil =>
    rw [exec_nil, Option.some.injEq] at h
    exact h ▸ h₀
  | cons l ls ih =>
    obtain ⟨m, hm, hrest⟩ := exec_cons_eq_some.mp h
    exact ih (I := fun ls => I (l :: ls)) (fun ls => hstep (l :: ls)) (hstep [] _ _ _ h₀ hm) hrest

theorem Reachable.invariant {I : S → Prop}
    (hstep : ∀ s l s', I s → M.step s l = some s' → I s') (h₀ : I s₀) (h : M.Reachable s₀ s) :
    I s := by
  obtain ⟨ls, hls⟩ := h
  exact exec_invariant hstep h₀ hls

/-! ### History variables -/

variable {G : Type*} {f : S → L → G → G} {g : G}

variable (M) in
/-- The machine with a history variable. `f` updates it from the state before a step and the label,
and no step looks at it. -/
def observe (f : S → L → G → G) : Machine (S × G) L where
  step p l := (M.step p.1 l).map fun s => (s, f p.1 l p.2)

theorem step_observe {p p' : S × G} :
    (M.observe f).step p l = some p' ↔ M.step p.1 l = some p'.1 ∧ f p.1 l p.2 = p'.2 := by
  obtain ⟨s', g'⟩ := p'
  simp only [observe, Option.map_eq_some_iff, Prod.mk.injEq]
  constructor
  · rintro ⟨s, hs, rfl, hg⟩
    exact ⟨hs, hg⟩
  · rintro ⟨hs, hg⟩
    exact ⟨s', hs, rfl, hg⟩

/-- **Every run can be observed.** -/
theorem exec_observe (h : M.exec s₀ ls = some s) (f : S → L → G → G) (g : G) :
    ∃ g', (M.observe f).exec (s₀, g) ls = some (s, g') := by
  induction ls generalizing s₀ g with
  | nil =>
    rw [exec_nil, Option.some.injEq] at h
    exact ⟨g, by rw [h, exec_nil]⟩
  | cons l ls ih =>
    obtain ⟨m, hm, hrest⟩ := exec_cons_eq_some.mp h
    obtain ⟨g', hg'⟩ := ih hrest (f s₀ l g)
    exact ⟨g', exec_cons_eq_some.mpr ⟨(m, f s₀ l g), step_observe.mpr ⟨hm, rfl⟩, hg'⟩⟩

/-! ### Conditions on every step of a run -/

variable (M) in
/-- Every step of the run satisfies `R`, which sees the state before, the label and the state
after. A run ends where a label is not enabled. -/
def Every (R : S → L → S → Prop) (s : S) : List L → Prop
  | [] => True
  | l :: ls => ∀ m, M.step s l = some m → R s l m ∧ Every R m ls

theorem Every.last {R : S → L → S → Prop} (h : M.Every R s₀ (ls ++ [l]))
    (hs : M.exec s₀ ls = some s) (hl : M.step s l = some s') : R s l s' := by
  induction ls generalizing s₀ with
  | nil =>
    rw [exec_nil, Option.some.injEq] at hs
    subst hs
    exact (h s' hl).1
  | cons a ls ih =>
    obtain ⟨m, hm, hrest⟩ := exec_cons_eq_some.mp hs
    exact ih (h m hm).2 hrest

theorem Every.and {R R' : S → L → S → Prop} (h : M.Every R s₀ ls) (h' : M.Every R' s₀ ls) :
    M.Every (fun s l m => R s l m ∧ R' s l m) s₀ ls := by
  induction ls generalizing s₀ with
  | nil => trivial
  | cons l ls ih =>
    intro m hm
    exact ⟨⟨(h m hm).1, (h' m hm).1⟩, ih (h m hm).2 (h' m hm).2⟩

/-- **The invariant rule for runs under a condition.** `I` need only be kept by the steps that
satisfy `R`. -/
theorem exec_invariant_of_every {R : S → L → S → Prop} {I : S → Prop}
    (hstep : ∀ s l s', I s → R s l s' → M.step s l = some s' → I s')
    (h₀ : I s₀) (hR : M.Every R s₀ ls) (h : M.exec s₀ ls = some s) : I s := by
  induction ls generalizing s₀ with
  | nil =>
    rw [exec_nil, Option.some.injEq] at h
    exact h ▸ h₀
  | cons l ls ih =>
    obtain ⟨m, hm, hrest⟩ := exec_cons_eq_some.mp h
    obtain ⟨hr, htail⟩ := hR m hm
    exact ih (hstep _ _ _ h₀ hr hm) htail hrest

/-- **A condition that implies another** along the runs that satisfy it. `I` need only be kept by the
steps that satisfy `R`. -/
theorem Every.imp {R R' : S → L → S → Prop} {I : S → Prop}
    (hstep : ∀ s l s', I s → R s l s' → M.step s l = some s' → I s')
    (himp : ∀ s l s', I s → M.step s l = some s' → R s l s' → R' s l s') (h₀ : I s₀)
    (hR : M.Every R s₀ ls) : M.Every R' s₀ ls := by
  induction ls generalizing s₀ with
  | nil => trivial
  | cons l ls ih =>
    intro m hm
    obtain ⟨hr, htail⟩ := hR m hm
    exact ⟨himp _ _ _ h₀ hm hr, ih (hstep _ _ _ h₀ hr hm) htail⟩

theorem every_cons {R : S → L → S → Prop} (h : M.step s l = some s') :
    M.Every R s (l :: ls) ↔ R s l s' ∧ M.Every R s' ls := by
  simp [Every, h]

theorem every_cons_none {R : S → L → S → Prop} (h : M.step s l = none) :
    M.Every R s (l :: ls) := by
  simp [Every, h]

instance decidableEvery {R : S → L → S → Prop} [∀ s l s', Decidable (R s l s')] :
    ∀ s ls, Decidable (M.Every R s ls)
  | _, [] => isTrue trivial
  | s, l :: ls =>
    match h : M.step s l with
    | none => isTrue (every_cons_none h)
    | some m =>
      have := decidableEvery (R := R) m ls
      decidable_of_iff _ (every_cons h).symm

/-- **Conditions that accumulate.** When each step adds the condition `R` to `P`, a run adds all of
them. -/
theorem exec_iff_every {R : S → L → S → Prop} {I P : S → Prop}
    (hstep : ∀ s l s', I s → M.step s l = some s' → I s')
    (hiff : ∀ s l s', I s → M.step s l = some s' → (P s' ↔ P s ∧ R s l s')) (h₀ : I s₀)
    (h : M.exec s₀ ls = some s) : P s ↔ P s₀ ∧ M.Every R s₀ ls := by
  induction ls generalizing s₀ with
  | nil =>
    rw [exec_nil, Option.some.injEq] at h
    exact h ▸ (and_iff_left trivial).symm
  | cons l ls ih =>
    obtain ⟨m, hm, hrest⟩ := exec_cons_eq_some.mp h
    rw [ih (hstep _ _ _ h₀ hm) hrest, hiff _ _ _ h₀ hm, and_assoc]
    refine and_congr_right fun _ => ⟨fun ⟨hr, htail⟩ m' hm' => ?_, fun hall => hall m hm⟩
    rw [hm, Option.some.injEq] at hm'
    exact hm' ▸ ⟨hr, htail⟩

/-- **Exactness lifts from steps to runs.** Two conditions that agree on every step out of a state
of the invariant `I` agree on every run. -/
theorem every_congr {R R' : S → L → S → Prop} {I : S → Prop}
    (hstep : ∀ s l s', I s → M.step s l = some s' → I s')
    (hiff : ∀ s l s', I s → M.step s l = some s' → (R s l s' ↔ R' s l s')) (h₀ : I s₀) :
    M.Every R s₀ ls ↔ M.Every R' s₀ ls := by
  induction ls generalizing s₀ with
  | nil => exact Iff.rfl
  | cons l ls ih =>
    refine forall₂_congr fun m hm => ?_
    rw [hiff _ _ _ h₀ hm, ih (hstep _ _ _ h₀ hm)]

/-! ### Conditions on every state of a run -/

variable (M) in
/-- Every state of the run satisfies `P`, the first one included. -/
def Always (P : S → Prop) (s : S) : List L → Prop
  | [] => P s
  | l :: ls => P s ∧ ∀ m, M.step s l = some m → Always P m ls

theorem Always.head {P : S → Prop} (h : M.Always P s ls) : P s := by
  cases ls with
  | nil => exact h
  | cons l ls => exact h.1

theorem always_cons {P : S → Prop} (h : M.step s l = some s') :
    M.Always P s (l :: ls) ↔ P s ∧ M.Always P s' ls := by
  simp [Always, h]

theorem always_cons_none {P : S → Prop} (h : M.step s l = none) :
    M.Always P s (l :: ls) ↔ P s := by
  simp [Always, h]

instance decidableAlways {P : S → Prop} [DecidablePred P] :
    ∀ s ls, Decidable (M.Always P s ls)
  | s, [] => inferInstanceAs (Decidable (P s))
  | s, l :: ls =>
    match h : M.step s l with
    | none => decidable_of_iff _ (always_cons_none h).symm
    | some m =>
      have := decidableAlways (P := P) m ls
      decidable_of_iff _ (always_cons h).symm

/-- **The invariant rule for runs of good states.** `I` need only be kept by the steps between
states that satisfy `P`. -/
theorem exec_invariant_of_always {P I : S → Prop}
    (hstep : ∀ s l s', I s → P s → P s' → M.step s l = some s' → I s')
    (h₀ : I s₀) (hP : M.Always P s₀ ls) (h : M.exec s₀ ls = some s) : I s ∧ P s := by
  induction ls generalizing s₀ with
  | nil =>
    rw [exec_nil, Option.some.injEq] at h
    exact h ▸ ⟨h₀, hP⟩
  | cons l ls ih =>
    obtain ⟨m, hm, hrest⟩ := exec_cons_eq_some.mp h
    obtain ⟨hhead, htail⟩ := hP
    exact ih (hstep _ _ _ h₀ hhead (htail m hm).head hm) (htail m hm) hrest

/-! ### Runs that come to an end -/

variable (M) in
/-- No label of this kind is enabled. -/
def Settled (A : L → Prop) (s : S) : Prop := ∀ l, A l → M.step s l = none

/-- **Labels that use up a rank.** A run of them is no longer than the rank it starts with. -/
theorem length_add_rank_le {A : L → Prop} {I : S → Prop} {rank : S → ℕ}
    (hstep : ∀ s l s', I s → M.step s l = some s' → I s')
    (hrank : ∀ s l s', I s → A l → M.step s l = some s' → rank s' < rank s) (h₀ : I s₀)
    (hA : ∀ l ∈ ls, A l) (h : M.exec s₀ ls = some s) : ls.length + rank s ≤ rank s₀ := by
  induction ls generalizing s₀ with
  | nil =>
    rw [exec_nil, Option.some.injEq] at h
    subst h
    exact Nat.le_of_eq (Nat.zero_add _)
  | cons l ls ih =>
    obtain ⟨m, hm, hrest⟩ := exec_cons_eq_some.mp h
    have hle := ih (hstep _ _ _ h₀ hm) (fun a ha => hA a (List.mem_cons_of_mem _ ha)) hrest
    have hlt := hrank _ _ _ h₀ (hA l List.mem_cons_self) hm
    rw [List.length_cons]
    omega

end Machine

end FrigateZmqDetector.Lib
