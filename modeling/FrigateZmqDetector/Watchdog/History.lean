import Mathlib.Data.List.DropRight
import Mathlib.Data.List.Pairwise
import FrigateZmqDetector.Lib.Machine
import FrigateZmqDetector.Watchdog.Progress

/-!
# What the progress watchdog remembers of a history

A history is the list of `request_start`, `response_ok` and `response_err` calls made so far, each
with the reading of the clock it took. `summary` says, in terms of the history alone, what the
watchdog should hold; `replay_new` proves that this is what it holds, and `check_replay_*` turn the
exits of `check` into statements about the history.

A check that does not fire changes nothing (`ProgressWatchdog.check_snd_of_none`), so the checks
made between the calls are left out of the history.
-/

namespace FrigateZmqDetector.Watchdog

open Lib

/-! ### Histories -/

/-- A call of the request loop, with its reading of the clock. -/
inductive Call where
  | requestStart (t : ℕ)
  | responseOk (t : ℕ)
  | responseErr (t : ℕ)
  deriving DecidableEq, Repr

namespace Call

def time : Call → ℕ
  | requestStart t | responseOk t | responseErr t => t

def start? : Call → Option ℕ
  | requestStart t => some t
  | _ => none

def ok? : Call → Option ℕ
  | responseOk t => some t
  | _ => none

def err? : Call → Option ℕ
  | responseErr t => some t
  | _ => none

end Call

def ProgressWatchdog.apply (w : ProgressWatchdog) : Call → ProgressWatchdog
  | .requestStart t => w.requestStart t
  | .responseOk t => w.responseOk t
  | .responseErr t => w.responseErr t

def ProgressWatchdog.replay (w : ProgressWatchdog) (cs : List Call) : ProgressWatchdog :=
  cs.foldl ProgressWatchdog.apply w

/-- The order in which the request loop makes its calls: each `request_start` is answered by one
response before the next one. The state says whether a request is open. -/
def requestOrder : Machine Bool Call where
  step
    | false, .requestStart _ => some true
    | true, .responseOk _ => some false
    | true, .responseErr _ => some false
    | _, _ => none

/-- **A history of the request loop**: its calls are in order and its readings never go back. -/
structure History where
  calls : List Call
  isOpen : Bool
  ordered : requestOrder.exec false calls = some isOpen
  sorted : calls.Pairwise fun c c' => c.time ≤ c'.time

/-! ### What a history says -/

section Lists

variable (cs : List Call)

/-- The readings of the `request_start` calls. -/
def starts : List ℕ := cs.filterMap Call.start?

def oks : List ℕ := cs.filterMap Call.ok?

def errs : List ℕ := cs.filterMap Call.err?

/-- The reading of the open request, if the last call is its `request_start`. -/
def openStart : Option ℕ := cs.getLast?.bind Call.start?

/-- The failures after the most recent success. -/
def errsSinceOk : List ℕ := errs (cs.rtakeWhile fun c => c.ok?.isNone)

/-- The most recently completed response. -/
def lastResponse : Option Call := (cs.filter fun c => c.start?.isNone).getLast?

variable (N M L : ℕ)

/-- **What the watchdog should hold after a history.** -/
def summary : ProgressWatchdog where
  totalRequests := (starts cs).length % 2 ^ 64
  totalSuccesses := (oks cs).length % 2 ^ 64
  totalFailures := (errs cs).length % 2 ^ 64
  lastSuccessMs := stamp (oks cs).getLast?
  lastFailureMs := stamp (errs cs).getLast?
  firstRequestMs := stamp (starts cs).head?
  inFlightStartMs := stamp (openStart cs)
  maxNoProgressSecs := N
  maxRequests := M
  maxLifetimeSecs := L
  fired := false

end Lists

variable {cs : List Call} {N M L n : ℕ}

theorem filterMap_snoc (f : Call → Option ℕ) (c : Call) :
    (cs ++ [c]).filterMap f = cs.filterMap f ++ (f c).toList := by
  rw [List.filterMap_append]
  cases h : f c <;> simp [h]

@[simp] theorem starts_snoc (c : Call) : starts (cs ++ [c]) = starts cs ++ c.start?.toList :=
  filterMap_snoc _ c

@[simp] theorem oks_snoc (c : Call) : oks (cs ++ [c]) = oks cs ++ c.ok?.toList :=
  filterMap_snoc _ c

@[simp] theorem errs_snoc (c : Call) : errs (cs ++ [c]) = errs cs ++ c.err?.toList :=
  filterMap_snoc _ c

@[simp] theorem openStart_snoc (c : Call) : openStart (cs ++ [c]) = c.start? := by
  simp [openStart]

theorem fetchAdd_mod (k : ℕ) : fetchAdd (k % 2 ^ 64) = (k + 1) % 2 ^ 64 := by
  rw [fetchAdd, Nat.mod_add_mod]

theorem compareExchange_stamp (l : List ℕ) (t : ℕ) :
    compareExchange (stamp l.head?) 0 (t + 1) = stamp (l ++ [t]).head? := by
  cases l <;> rfl

theorem summary_snoc (c : Call) : (summary cs N M L).apply c = summary (cs ++ [c]) N M L := by
  unfold summary
  rw [starts_snoc, oks_snoc, errs_snoc, openStart_snoc]
  cases c with
  | requestStart t =>
    simp only [ProgressWatchdog.apply, ProgressWatchdog.requestStart, fetchAdd_mod,
      compareExchange_stamp, Call.start?, Call.ok?, Call.err?, Option.toList, List.append_nil,
      List.length_append, List.length_singleton, stamp_some]
  | responseOk t =>
    simp only [ProgressWatchdog.apply, ProgressWatchdog.responseOk, fetchAdd_mod, Call.start?,
      Call.ok?, Call.err?, Option.toList, List.append_nil, List.length_append,
      List.length_singleton, List.getLast?_concat, stamp_some, stamp_none]
  | responseErr t =>
    simp only [ProgressWatchdog.apply, ProgressWatchdog.responseErr, fetchAdd_mod, Call.start?,
      Call.ok?, Call.err?, Option.toList, List.append_nil, List.length_append,
      List.length_singleton, List.getLast?_concat, stamp_some, stamp_none]

/-- **The watchdog holds what the history says.** -/
theorem replay_new (cs : List Call) :
    (ProgressWatchdog.new N M L).replay cs = summary cs N M L := by
  induction cs using List.reverseRecOn with
  | nil => rfl
  | append_singleton cs c ih =>
    rw [← summary_snoc, ← ih]
    simp [ProgressWatchdog.replay]

/-! ### The check, in terms of the history -/

section Check

open HealthSnapshot

theorem lifetimeReached_summary :
    LifetimeReached (summary cs N M L) ((summary cs N M L).snapshot n) ↔
      0 < L ∧ 1000 * L ≤ n := by
  simp only [LifetimeReached, summary, ProgressWatchdog.snapshot]
  omega

theorem noSuccess_summary :
    NoSuccess (summary cs N M L) ((summary cs N M L).snapshot n) ↔
      (0 < N ∧ 0 < (starts cs).length % 2 ^ 64) ∧ oks cs = [] ∧
        ∃ t, (starts cs).head? = some t ∧ t + 1 + 1000 * N ≤ n := by
  simp only [NoSuccess, summary, ProgressWatchdog.snapshot, stamp_eq_zero,
    List.getLast?_eq_none_iff]
  apply and_congr_right
  intro hreq
  apply and_congr_right
  intro _
  rw [le_ageSecs hreq.1]
  cases hs : starts cs with
  | nil =>
    have hlen := hreq.2
    simp [hs] at hlen
  | cons t ts => simp

theorem failureTimeout_summary :
    FailureTimeout (summary cs N M L) ((summary cs N M L).snapshot n) ↔
      (0 < N ∧ 0 < (starts cs).length % 2 ^ 64) ∧
        ∃ g, (errs cs).getLast? = some g ∧ (∀ r, (oks cs).getLast? = some r → r < g) ∧
          g + 1 + 1000 * N ≤ n := by
  simp only [FailureTimeout, summary, ProgressWatchdog.snapshot, stamp_lt_stamp]
  apply and_congr_right
  intro hreq
  rw [le_ageSecs hreq.1]
  constructor
  · rintro ⟨⟨g, hg, hlt⟩, hage⟩
    rw [hg, stamp_some] at hage
    exact ⟨g, hg, hlt, hage⟩
  · rintro ⟨g, hg, hlt, hage⟩
    rw [hg, stamp_some]
    exact ⟨⟨g, rfl, hlt⟩, hage⟩

theorem inFlightStuck_summary :
    InFlightStuck (summary cs N M L) ((summary cs N M L).snapshot n) ↔
      0 < N ∧ ∃ t, openStart cs = some t ∧ t + 1 + 1000 * N ≤ n := by
  simp only [InFlightStuck, summary, ProgressWatchdog.snapshot, stamp_pos, and_assoc]
  apply and_congr_right
  intro hN
  rw [le_ageSecs hN]
  constructor
  · rintro ⟨⟨t, ht⟩, hage⟩
    rw [ht, stamp_some] at hage
    exact ⟨t, ht, hage⟩
  · rintro ⟨t, ht, hage⟩
    rw [ht, stamp_some]
    exact ⟨⟨t, rfl⟩, hage⟩

theorem check_replay :
    (((ProgressWatchdog.new N M L).replay cs).check n).1 =
      reason (summary cs N M L) ((summary cs N M L).snapshot n) := by
  rw [replay_new]
  exact ProgressWatchdog.check_of_not_fired rfl

end Check

/-! ### Membership -/

theorem Call.ok?_eq_some {c : Call} {t : ℕ} : c.ok? = some t ↔ c = .responseOk t := by
  cases c <;> simp [Call.ok?]

theorem Call.err?_eq_some {c : Call} {t : ℕ} : c.err? = some t ↔ c = .responseErr t := by
  cases c <;> simp [Call.err?]

theorem Call.start?_eq_some {c : Call} {t : ℕ} : c.start? = some t ↔ c = .requestStart t := by
  cases c <;> simp [Call.start?]

theorem mem_starts {t : ℕ} : t ∈ starts cs ↔ .requestStart t ∈ cs := by
  simp [starts, Call.start?_eq_some]

theorem mem_oks {t : ℕ} : t ∈ oks cs ↔ .responseOk t ∈ cs := by
  simp [oks, Call.ok?_eq_some]

theorem mem_errs {t : ℕ} : t ∈ errs cs ↔ .responseErr t ∈ cs := by
  simp [errs, Call.err?_eq_some]

theorem errsSinceOk_subset : errsSinceOk cs ⊆ errs cs :=
  ((List.rtakeWhile_suffix _ _).filterMap _).subset

theorem mem_openStart {t : ℕ} : openStart cs = some t ↔ cs.getLast? = some (.requestStart t) := by
  simp [openStart, Option.bind_eq_some_iff, Call.start?_eq_some]

/-! ### Facts about ordered histories -/

namespace History

variable (h : History)

theorem calls_cases : h.calls = [] ∨ ∃ t cs, h.calls = .requestStart t :: cs := by
  have ho := h.ordered
  cases hc : h.calls with
  | nil => exact Or.inl rfl
  | cons c cs =>
    rw [hc] at ho
    obtain ⟨m, hm, -⟩ := Machine.exec_cons_eq_some.mp ho
    cases c with
    | requestStart t => exact Or.inr ⟨t, cs, rfl⟩
    | responseOk t => cases hm
    | responseErr t => cases hm

/-- The first call is a `request_start`, and nothing is earlier. -/
theorem exists_first {c : Call} (hc : c ∈ h.calls) :
    ∃ t, (starts h.calls).head? = some t ∧ t ≤ c.time := by
  rcases h.calls_cases with hnil | ⟨t, cs, hcs⟩
  · rw [hnil] at hc
    cases hc
  · have hs := h.sorted
    rw [hcs] at hc hs ⊢
    refine ⟨t, by simp [starts, Call.start?], ?_⟩
    rcases List.mem_cons.mp hc with rfl | hmem
    · exact le_rfl
    · exact (List.pairwise_cons.mp hs).1 c hmem

theorem le_getLast? {f : Call → Option ℕ} (hf : ∀ c t, f c = some t → c.time = t) {r : ℕ}
    (hr : r ∈ h.calls.filterMap f) :
    ∃ r', (h.calls.filterMap f).getLast? = some r' ∧ r ≤ r' := by
  have hp : (h.calls.filterMap f).Pairwise (· ≤ ·) := by
    rw [List.pairwise_filterMap]
    refine h.sorted.imp fun {c c'} hcc b hb b' hb' => ?_
    rw [← hf _ _ hb, ← hf _ _ hb']
    exact hcc
  have hne : h.calls.filterMap f ≠ [] := List.ne_nil_of_mem hr
  exact ⟨_, List.getLast?_eq_some_getLast hne, hp.rel_getLast hr⟩

theorem le_lastOk {r : ℕ} (hr : r ∈ oks h.calls) :
    ∃ r', (oks h.calls).getLast? = some r' ∧ r ≤ r' :=
  h.le_getLast? (fun c t hc => by rw [Call.ok?_eq_some.mp hc]; rfl) hr

theorem time_le_getLast? {p : Call → Bool} {c c' : Call} (hl : (h.calls.filter p).getLast? = some c)
    (hc : c' ∈ h.calls.filter p) : c'.time ≤ c.time := by
  have hp : (h.calls.filter p).Pairwise fun c c' => c.time ≤ c'.time := h.sorted.filter p
  have : Std.Refl fun c c' : Call => c.time ≤ c'.time := ⟨fun _ => le_rfl⟩
  have hle := hp.rel_getLast hc
  rw [List.getLast?_eq_some_getLast (List.ne_nil_of_mem hc), Option.some.injEq] at hl
  rwa [hl] at hle

theorem time_le_last {c c' : Call} (hl : h.calls.getLast? = some c) (hc : c' ∈ h.calls) :
    c'.time ≤ c.time := by
  have hall : h.calls.filter (fun _ => true) = h.calls := by simp
  exact h.time_le_getLast? (p := fun _ => true) (by rwa [hall]) (by rwa [hall])

theorem isOpen_of_last {c : Call} (hl : h.calls.getLast? = some c) :
    h.isOpen = c.start?.isSome := by
  have ho := h.ordered
  obtain ⟨cs, hcs⟩ := List.getLast?_eq_some_iff.mp hl
  rw [hcs] at ho
  obtain ⟨m, -, hm⟩ := Machine.exec_snoc.mp ho
  cases m <;> cases c <;> simp_all [requestOrder, Call.start?]

/-- After the last call of a history that has no open request, the last response is that call. -/
theorem lastResponse_eq_last {c : Call} (hl : h.calls.getLast? = some c)
    (hopen : h.isOpen = false) : lastResponse h.calls = some c := by
  have hnone : c.start?.isNone = true := by
    have := h.isOpen_of_last hl
    rw [hopen] at this
    simpa using this
  obtain ⟨cs, hcs⟩ := List.getLast?_eq_some_iff.mp hl
  rw [lastResponse, hcs, List.filter_append, List.filter_singleton, hnone]
  simp

end History

end FrigateZmqDetector.Watchdog
