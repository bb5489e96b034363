import FrigateZmqDetector.Lib.Machine

/-!
# Simulations between machines

`Simulates M N R` relates a machine `M` that looks closely to a machine `N` that does not: each step
of `M` is a run of `N`, of no, one or several steps, from any related state to a related state. The
relation may let `N` lag behind, and may carry an invariant of `M`.
-/

namespace FrigateZmqDetector.Lib

namespace Machine

variable {S L T K : Type*} {M : Machine S L} {N : Machine T K} {R : S → T → Prop} {s s' : S}
  {t t' : T} {l : L} {ls : List L} {k k' : K} {ks : List K}

/-- **Every step of `M` is a run of `N`.** -/
def Simulates (M : Machine S L) (N : Machine T K) (R : S → T → Prop) : Prop :=
  ∀ s t l s', R s t → M.step s l = some s' → ∃ ks t', N.exec t ks = some t' ∧ R s' t'

/-- **Every run of `M` is a run of `N`.** -/
theorem Simulates.exec (h : Simulates M N R) (hR : R s t) (hs : M.exec s ls = some s') :
    ∃ ks t', N.exec t ks = some t' ∧ R s' t' := by
  induction ls generalizing s t with
  | nil =>
    rw [exec_nil, Option.some.injEq] at hs
    exact ⟨[], t, rfl, hs ▸ hR⟩
  | cons l ls ih =>
    obtain ⟨m, hm, hrest⟩ := exec_cons_eq_some.mp hs
    obtain ⟨ks, u, hks, hu⟩ := h s t l m hR hm
    obtain ⟨ks', t', hks', hR'⟩ := ih hu hrest
    refine ⟨ks ++ ks', t', ?_, hR'⟩
    rw [exec_append, hks, Option.bind_some, hks']

/-! ### The runs that match a step -/

variable {Q : T → Prop}

theorem match_none (h : Q t) : ∃ ks t', N.exec t ks = some t' ∧ Q t' := ⟨[], t, rfl, h⟩

theorem match_one (hk : N.step t k = some t') (h : Q t') :
    ∃ ks t', N.exec t ks = some t' ∧ Q t' :=
  ⟨[k], t', exec_cons_eq_some.mpr ⟨t', hk, rfl⟩, h⟩

theorem match_two {u : T} (hk : N.step t k = some u) (hk' : N.step u k' = some t') (h : Q t') :
    ∃ ks t', N.exec t ks = some t' ∧ Q t' :=
  ⟨[k, k'], t', exec_cons_eq_some.mpr ⟨u, hk, exec_cons_eq_some.mpr ⟨t', hk', rfl⟩⟩, h⟩

end Machine

end FrigateZmqDetector.Lib
