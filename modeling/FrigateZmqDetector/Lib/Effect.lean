import Mathlib.Data.Nat.Notation
import Mathlib.Tactic.TypeStar

/-!
# Calls that work on a state and can fail or panic

`Eff σ ε α` is a call on a state `σ` that returns a value, returns an error or panics. Whatever it
did to the state stays, however it ends: an error is a result and does not roll anything back.

* `Ensures c P`: the call never panics, and the values it returns satisfy `P`;
* `Keeps g c`: the call leaves the part `g` of the state alone;
* `Spec P c Q E`: from `P`, the call returns a value with `Q`, or ends without one in `E`.
-/

namespace FrigateZmqDetector.Lib

universe u v w

inductive Outcome (ε α : Type*) where
  | ok (a : α)
  | err (e : ε)
  | panic
  deriving DecidableEq, Repr

namespace Outcome

variable {ε α : Type*}

def isOk : Outcome ε α → Bool
  | .ok _ => true
  | .err _ | .panic => false

def isErr : Outcome ε α → Bool
  | .err _ => true
  | .ok _ | .panic => false

/-- How a call ended, without the error. -/
def forget : Outcome ε α → Outcome Unit α
  | .ok a => .ok a
  | .err _ => .err ()
  | .panic => .panic

/-- The call did not panic, and a value it returned satisfies `P`. -/
def Ensures (P : α → Prop) : Outcome ε α → Prop
  | .ok a => P a
  | .err _ => True
  | .panic => False

end Outcome

structure Eff (σ ε α : Type*) where
  /-- How the call ends when started in a state, and the state it leaves. -/
  run : σ → Outcome ε α × σ

namespace Eff

variable {σ τ : Type u} {ε : Type v} {α β : Type w}

/-- A call, and then another unless the first one failed. -/
protected def bind (c : Eff σ ε α) (f : α → Eff σ ε β) : Eff σ ε β where
  run s :=
    match c.run s with
    | (.ok a, s') => (f a).run s'
    | (.err e, s') => (.err e, s')
    | (.panic, s') => (.panic, s')

instance {σ : Type u} {ε : Type v} : Monad (Eff.{u, v, w} σ ε) where
  pure a := ⟨fun s => (.ok a, s)⟩
  bind := Eff.bind

def throw (e : ε) : Eff σ ε α := ⟨fun s => (.err e, s)⟩

def get : Eff σ ε σ := ⟨fun s => (.ok s, s)⟩

def modify (f : σ → σ) : Eff σ ε Unit := ⟨fun s => (.ok (), f s)⟩

/-- An element of a list; out of bounds it panics. -/
def index (xs : List α) (i : ℕ) : Eff σ ε α where
  run s :=
    match xs[i]? with
    | some a => (.ok a, s)
    | none => (.panic, s)

/-- A list with one element replaced; out of bounds it panics. -/
def setIndex (xs : List α) (i : ℕ) (a : α) : Eff σ ε (List α) :=
  ⟨fun s => if i < xs.length then (.ok (xs.set i a), s) else (.panic, s)⟩

/-- A value that must be there: an error when it is not. -/
def okOr (a : Option α) (e : ε) : Eff σ ε α :=
  match a with
  | some a => pure a
  | none => throw e

/-- A call on a part of a larger state. -/
def zoom (get : τ → σ) (put : σ → τ → τ) (c : Eff σ ε α) : Eff τ ε α :=
  ⟨fun t => ((c.run (get t)).1, put (c.run (get t)).2 t)⟩

/-- A call with its error handled: `handle` says what it returns instead. -/
def orElse (c : Eff σ ε α) (handle : ε → α) : Eff σ ε α where
  run s :=
    match c.run s with
    | (.ok a, s') => (.ok a, s')
    | (.err e, s') => (.ok (handle e), s')
    | (.panic, s') => (.panic, s')

def attempt (c : Eff σ ε α) : Eff σ ε Bool where
  run s :=
    match c.run s with
    | (.ok _, s') => (.ok true, s')
    | (.err _, s') => (.ok false, s')
    | (.panic, s') => (.panic, s')

/-- A call with a clean-up of the state when it returns an error. -/
def onErr (c : Eff σ ε α) (cleanup : σ → σ) : Eff σ ε α where
  run s :=
    match c.run s with
    | (.ok a, s') => (.ok a, s')
    | (.err e, s') => (.err e, cleanup s')
    | (.panic, s') => (.panic, s')

/-! ### What a call does, step by step -/

variable {c : Eff σ ε α} {f : α → Eff σ ε β} {s s' : σ}

@[simp] theorem run_pure (a : α) : (pure a : Eff σ ε α).run s = (.ok a, s) := rfl

@[simp] theorem run_get : (get : Eff σ ε σ).run s = (.ok s, s) := rfl

theorem run_bind_of_ok {a : α} (h : c.run s = (.ok a, s')) : (c >>= f).run s = (f a).run s' := by
  show (Eff.bind c f).run s = _
  simp only [Eff.bind, h]

theorem run_bind_of_err {e : ε} (h : c.run s = (.err e, s')) :
    (c >>= f).run s = (.err e, s') := by
  show (Eff.bind c f).run s = _
  simp only [Eff.bind, h]

theorem run_bind_of_panic (h : c.run s = (.panic, s')) : (c >>= f).run s = (.panic, s') := by
  show (Eff.bind c f).run s = _
  simp only [Eff.bind, h]

/-- A sequence that returned a value went through both calls. -/
theorem run_bind_eq_ok {a : β} {s'' : σ} (h : (c >>= f).run s = (.ok a, s'')) :
    ∃ v s', c.run s = (.ok v, s') ∧ (f v).run s' = (.ok a, s'') := by
  rcases hc : c.run s with ⟨v | e | _, s'⟩
  · exact ⟨v, s', rfl, run_bind_of_ok hc ▸ h⟩
  · rw [run_bind_of_err hc] at h
    cases h
  · rw [run_bind_of_panic hc] at h
    cases h

theorem run_index_of_some {xs : List α} {i : ℕ} {a : α} (h : xs[i]? = some a) :
    (index xs i : Eff σ ε α).run s = (.ok a, s) := by
  simp only [index, h]

theorem run_index_eq_ok {xs : List α} {i : ℕ} {a : α}
    (h : (index xs i : Eff σ ε α).run s = (.ok a, s')) : xs[i]? = some a ∧ s' = s := by
  simp only [index] at h
  cases hx : xs[i]? with
  | none =>
    rw [hx] at h
    cases h
  | some b =>
    rw [hx] at h
    cases h
    exact ⟨rfl, rfl⟩

theorem run_setIndex_of_lt {xs : List α} {i : ℕ} (h : i < xs.length) (a : α) :
    (setIndex xs i a : Eff σ ε (List α)).run s = (.ok (xs.set i a), s) := if_pos h

theorem run_orElse_of_ok {handle : ε → α} {a : α} (h : c.run s = (.ok a, s')) :
    (c.orElse handle).run s = (.ok a, s') := by
  simp only [orElse, h]

theorem run_orElse_of_err {handle : ε → α} {e : ε} (h : c.run s = (.err e, s')) :
    (c.orElse handle).run s = (.ok (handle e), s') := by
  simp only [orElse, h]

theorem run_orElse_of_panic {handle : ε → α} (h : c.run s = (.panic, s')) :
    (c.orElse handle).run s = (.panic, s') := by
  simp only [orElse, h]

@[simp] theorem run_attempt_snd : (c.attempt.run s).2 = (c.run s).2 := by
  simp only [attempt]
  rcases c.run s with ⟨_ | _ | _, s'⟩ <;> rfl

@[simp] theorem run_orElse_snd (handle : ε → α) : ((c.orElse handle).run s).2 = (c.run s).2 := by
  rcases hc : c.run s with ⟨a | e | _, s'⟩
  · rw [run_orElse_of_ok hc]
  · rw [run_orElse_of_err hc]
  · rw [run_orElse_of_panic hc]

/-- Calls that end in the same way do so with their errors handled. -/
theorem run_orElse_congr {c' : Eff τ ε α} {t t' : τ} (h : c'.run t = ((c.run s).1, t'))
    (handle : ε → α) : (c'.orElse handle).run t = (((c.orElse handle).run s).1, t') := by
  rcases hc : c.run s with ⟨a | e | _, s'⟩ <;> rw [hc] at h
  · rw [run_orElse_of_ok h, run_orElse_of_ok hc]
  · rw [run_orElse_of_err h, run_orElse_of_err hc]
  · rw [run_orElse_of_panic h, run_orElse_of_panic hc]

@[simp] theorem run_okOr_some (a : α) (e : ε) :
    (okOr (some a) e : Eff σ ε α).run s = (.ok a, s) := rfl

/-! ### What a call ensures -/

/-- The call never panics, and its values satisfy `P`. -/
def Ensures (c : Eff σ ε α) (P : α → Prop) : Prop := ∀ s, (c.run s).1.Ensures P

section Ensures

variable {P : α → Prop} {R : β → Prop}

theorem ensures_pure {a : α} (h : P a) : Ensures (pure a : Eff σ ε α) P := fun _ => h

theorem ensures_throw (e : ε) : Ensures (throw e : Eff σ ε α) P := fun _ => trivial

theorem ensures_index {xs : List α} {i : ℕ} (h : i < xs.length) :
    Ensures (index xs i : Eff σ ε α) fun v => xs[i]? = some v := by
  intro s
  rw [run_index_of_some (List.getElem?_eq_getElem h)]
  exact List.getElem?_eq_getElem h

theorem Ensures.bind (hc : Ensures c P) (hf : ∀ a, P a → Ensures (f a) R) :
    Ensures (c >>= f) R := by
  intro s
  have hs := hc s
  rcases hcs : c.run s with ⟨a | e | _, s'⟩ <;> rw [hcs] at hs
  · rw [run_bind_of_ok hcs]
    exact hf a hs s'
  · rw [run_bind_of_err hcs]
    trivial
  · exact hs.elim

theorem Ensures.onErr (hc : Ensures c P) (cleanup : σ → σ) : Ensures (c.onErr cleanup) P := by
  intro s
  have hs := hc s
  rcases hcs : c.run s with ⟨a | e | _, s'⟩ <;> rw [hcs] at hs <;> simp only [Eff.onErr, hcs] <;>
    exact hs

theorem Ensures.zoom {get : τ → σ} {put : σ → τ → τ} (hc : Ensures c P) :
    Ensures (zoom get put c) P := fun t => hc (get t)

end Ensures

/-! ### Frames -/

/-- The call leaves the part `g` of the state alone. -/
def Keeps {γ : Type*} (g : σ → γ) (c : Eff σ ε α) : Prop := ∀ s, g (c.run s).2 = g s

section Frames

variable {γ : Type*} {g : σ → γ}

theorem keeps_get : Keeps g (get : Eff σ ε σ) := fun _ => rfl

theorem keeps_throw (e : ε) : Keeps g (throw e : Eff σ ε α) := fun _ => rfl

theorem keeps_index (xs : List α) (i : ℕ) : Keeps g (index xs i : Eff σ ε α) := by
  intro s
  simp only [index]
  cases xs[i]? <;> rfl

theorem keeps_okOr (a : Option α) (e : ε) : Keeps g (okOr a e : Eff σ ε α) := by
  cases a <;> exact fun _ => rfl

theorem Keeps.bind (hc : Keeps g c) (hf : ∀ a, Keeps g (f a)) : Keeps g (c >>= f) := by
  intro s
  have hs := hc s
  rcases hcs : c.run s with ⟨a | e | _, s'⟩ <;> rw [hcs] at hs
  · rw [run_bind_of_ok hcs]
    exact (hf a s').trans hs
  · rwa [run_bind_of_err hcs]
  · rwa [run_bind_of_panic hcs]

theorem keeps_zoom {get : τ → σ} {put : σ → τ → τ} {h : τ → γ} (hput : ∀ s t, h (put s t) = h t) :
    Keeps h (zoom get put c) := fun _ => hput _ _

end Frames

/-! ### Pre- and postconditions -/

/-- From a state with `P`, the call returns a value with `Q`, or fails or panics and leaves `E`. -/
def Spec (P : σ → Prop) (c : Eff σ ε α) (Q : α → σ → Prop) (E : σ → Prop) : Prop :=
  ∀ s, P s →
    match c.run s with
    | (.ok a, s') => Q a s'
    | (.err _, s') | (.panic, s') => E s'

section Specs

variable {P I E : σ → Prop} {Q : α → σ → Prop} {R : β → σ → Prop}

theorem spec_pure (a : α) : Spec (Q a) (pure a : Eff σ ε α) Q E := fun _ h => h

theorem spec_throw (e : ε) : Spec E (throw e : Eff σ ε α) Q E := fun _ h => h

theorem Spec.bind (hc : Spec P c Q E) (hf : ∀ a, Spec (Q a) (f a) R E) : Spec P (c >>= f) R E := by
  intro s hs
  have hrun := hc s hs
  rcases hcs : c.run s with ⟨a | e | _, s'⟩ <;> rw [hcs] at hrun
  · rw [run_bind_of_ok hcs]
    exact hf a s' hrun
  · rw [run_bind_of_err hcs]
    exact hrun
  · rw [run_bind_of_panic hcs]
    exact hrun

/-- The clean-up of a call that never panics restores what its failure has broken. -/
theorem Spec.onErr {E' : σ → Prop} (hc : Spec P c Q E) (hpanic : c.Ensures fun _ => True)
    {cleanup : σ → σ} (hcleanup : ∀ s, E s → E' (cleanup s)) : Spec P (c.onErr cleanup) Q E' := by
  intro s hs
  have hrun := hc s hs
  have hens := hpanic s
  rcases hcs : c.run s with ⟨a | e | _, s'⟩ <;> rw [hcs] at hrun hens <;>
    simp only [Eff.onErr, hcs]
  · exact hrun
  · exact hcleanup s' hrun
  · exact hens.elim

/-- A call that keeps `g` keeps what depends on `g` only. -/
theorem Keeps.spec {γ : Type*} {g : σ → γ} (h : Keeps g c) (K : γ → Prop) :
    Spec (fun s => K (g s)) c (fun _ s => K (g s)) fun s => K (g s) := by
  intro s hs
  rw [← h s] at hs
  rcases hcs : c.run s with ⟨a | e | _, s'⟩ <;> rw [hcs] at hs <;> exact hs

/-- An invariant of a call holds however it ends. -/
theorem Spec.invariant (h : Spec I c (fun _ => I) I) (hs : I s) : I (c.run s).2 := by
  have hrun := h s hs
  rcases hcs : c.run s with ⟨a | e | _, s'⟩ <;> rw [hcs] at hrun <;> exact hrun

end Specs

end Eff

end FrigateZmqDetector.Lib
