import FrigateZmqDetector.Watchdog.Interleaving

/-!
# The race between `request_start` and a check

`request_start` counts the request before it stamps it. A check that loads `total_requests` after
the count and `first_request_ms` before the stamp has a torn snapshot, in which the zero of "no
request yet" is taken for a request at the start of the process. `race_iff` says exactly which
interleavings are free of an unfounded "no success timeout": those in which no torn snapshot is
completed once the process is `N` seconds old. `torn_window` says where a torn snapshot comes from:
both loads fall between the `fetch_add` and the `compare_exchange` of the first request. A run in
which no check loads the first stamp there completes none (`noTornSnapshot_of_window`).
-/

namespace FrigateZmqDetector.Watchdog

open Lib HealthSnapshot

variable {N M L : ℕ} {s s' : Shared} {a : Act}

/-- A stamp that is not set, or comes from a reading of `request_start`. -/
def FromRead (reads : List ℕ) (word : ℕ) : Prop := word = 0 ∨ ∃ t ∈ reads, word = t + 1

theorem FromRead.mono {reads : List ℕ} {word : ℕ} (h : FromRead reads word) (t : ℕ) :
    FromRead (reads ++ [t]) word := by
  rcases h with h | ⟨u, hu, rfl⟩
  · exact Or.inl h
  · exact Or.inr ⟨u, List.mem_append_left _ hu, rfl⟩

/-! ### What one operation can do -/

/-- **What the request loop can do to the first stamp.** -/
theorem loopOp_spec {ok : Bool} (h : loopOp s ok = some s') :
    s'.clock = s.clock ∧ s'.checks = s.checks ∧
      s'.w.maxNoProgressSecs = s.w.maxNoProgressSecs ∧
      s'.w.maxLifetimeSecs = s.w.maxLifetimeSecs ∧
      ((s'.w.firstRequestMs = s.w.firstRequestMs ∧ s'.startReads = s.startReads ∧
          ∀ m, s'.loop ≠ .clockRead m) ∨
        (s'.w.firstRequestMs = s.w.firstRequestMs ∧ s'.startReads = s.startReads ++ [s.clock] ∧
          s'.loop = .clockRead (s.clock + 1)) ∨
        ∃ m, s.loop = .clockRead m ∧ s'.startReads = s.startReads ∧ s'.loop = .firstStored m ∧
          s'.w.firstRequestMs = compareExchange s.w.firstRequestMs 0 m) := by
  unfold loopOp at h
  split at h <;> cases h
  case h_2 => exact ⟨rfl, rfl, rfl, rfl, Or.inr (Or.inl ⟨rfl, rfl, rfl⟩)⟩
  case h_3 m hm => exact ⟨rfl, rfl, rfl, rfl, Or.inr (Or.inr ⟨m, hm, rfl, rfl, rfl⟩)⟩
  case h_5 =>
    refine ⟨rfl, rfl, rfl, rfl, Or.inl ⟨rfl, rfl, fun m => ?_⟩⟩
    cases ok <;> nofun
  case h_8 =>
    refine ⟨rfl, rfl, rfl, rfl, Or.inl ⟨rfl, rfl, fun m => ?_⟩⟩
    cases hx : s.w.responseOkExit <;> simp
  all_goals exact ⟨rfl, rfl, rfl, rfl, Or.inl ⟨rfl, rfl, nofun⟩⟩

/-- **What a check can do.** It leaves every stamp alone; it starts with nothing loaded, loads the
values in order, and has its eighth before it decides. -/
theorem checkOp_spec {w w' : ProgressWatchdog} {now : ℕ} {pc pc' : CheckPc}
    (h : checkOp w now pc = some (w', pc')) :
    (∃ b, w' = { w with fired := b }) ∧
      (pc' = .idle ∨ pc' = .loading 0 .blank ∨
        ∃ i snap, pc = .loading i snap ∧
          (i < 7 ∧ pc' = .loading (i + 1) (load w now i snap) ∨
            7 ≤ i ∧ pc' = decided w (load w now i snap))) := by
  cases pc with
  | idle =>
    cases h
    refine ⟨⟨true, rfl⟩, ?_⟩
    cases w.fired <;> simp
  | loading i snap =>
    cases h
    refine ⟨⟨w.fired, rfl⟩, Or.inr (Or.inr ⟨i, snap, rfl, ?_⟩)⟩
    by_cases hi : i < 7
    · exact Or.inl ⟨hi, if_pos hi⟩
    · exact Or.inr ⟨Nat.not_lt.mp hi, if_neg hi⟩
  | clearing =>
    cases h
    exact ⟨⟨false, rfl⟩, Or.inl rfl⟩
  | fired r n => cases h

/-- **Where a check that is loading comes from**: it was there before, or has just started, or is the
one that moves and has loaded one more value. -/
theorem loading_of_setCheck {id id' i : ℕ} {w' : ProgressWatchdog} {pc' : CheckPc}
    {snap : HealthSnapshot} (hs : checkOp s.w s.clock (s.checks id) = some (w', pc'))
    (hi : (s.setCheck id w' pc').checks id' = .loading i snap) :
    s.checks id' = .loading i snap ∨ (i = 0 ∧ snap = .blank) ∨
      ∃ j snap', s.checks id = .loading j snap' ∧ j < 7 ∧ i = j + 1 ∧
        snap = load s.w s.clock j snap' := by
  by_cases hid : id' = id
  · subst hid
    simp only [Shared.setCheck, Function.update_self] at hi
    obtain ⟨-, rfl | rfl | ⟨j, snap', hj, ⟨hlt, rfl⟩ | ⟨-, rfl⟩⟩⟩ := checkOp_spec hs
    · cases hi
    · cases hi
      exact Or.inr (Or.inl ⟨rfl, rfl⟩)
    · cases hi
      exact Or.inr (Or.inr ⟨j, snap', hj, hlt, rfl, rfl⟩)
    · unfold decided at hi
      split at hi <;> cases hi
  · simp only [Shared.setCheck, Function.update_of_ne hid] at hi
    exact Or.inl hi

/-! ### The invariant -/

/-- What holds throughout: the limits stay; a first stamp comes from a reading of `request_start`,
in the record, on its way there, and in a snapshot that has loaded it. -/
structure RaceInv (N L : ℕ) (s : Shared) : Prop where
  noProgress : s.w.maxNoProgressSecs = N
  lifetime : s.w.maxLifetimeSecs = L
  first : FromRead s.startReads s.w.firstRequestMs
  pending : ∀ m, s.loop = .clockRead m → FromRead s.startReads m
  loads : ∀ id i snap, s.checks id = .loading i snap →
    i ≤ 7 ∧ (5 < i → FromRead s.startReads snap.firstRequestMs)

theorem RaceInv.initial : RaceInv N L (.initial N M L) :=
  ⟨rfl, rfl, Or.inl rfl, nofun, nofun⟩

theorem load_firstRequestMs (w : ProgressWatchdog) (now i : ℕ) (snap : HealthSnapshot) :
    (load w now i snap).firstRequestMs = if i = 5 then w.firstRequestMs else snap.firstRequestMs := by
  unfold load
  split <;> simp_all

theorem RaceInv.loop {ok : Bool} (h : RaceInv N L s) (hs : loopOp s ok = some s') :
    RaceInv N L s' := by
  obtain ⟨-, hchecks, hN, hL, hcase⟩ := loopOp_spec hs
  have hfixed : s'.w.maxNoProgressSecs = N ∧ s'.w.maxLifetimeSecs = L :=
    ⟨hN.trans h.noProgress, hL.trans h.lifetime⟩
  rcases hcase with ⟨hfirst, hreads, hpc⟩ | ⟨hfirst, hreads, hpc⟩ | ⟨m, hm, hreads, hpc, hfirst⟩
  · refine ⟨hfixed.1, hfixed.2, ?_, fun m hm => absurd hm (hpc m), ?_⟩
    · rw [hfirst, hreads]
      exact h.first
    · rw [hchecks, hreads]
      exact h.loads
  · refine ⟨hfixed.1, hfixed.2, ?_, fun m hm => ?_, fun id i snap hi => ?_⟩
    · rw [hfirst, hreads]
      exact h.first.mono _
    · rw [hpc] at hm
      cases hm
      rw [hreads]
      exact Or.inr ⟨s.clock, by simp, rfl⟩
    · rw [hchecks] at hi
      rw [hreads]
      exact ⟨(h.loads id i snap hi).1, fun h5 => ((h.loads id i snap hi).2 h5).mono _⟩
  · refine ⟨hfixed.1, hfixed.2, ?_, fun m' hm' => ?_, ?_⟩
    · rw [hfirst, hreads, compareExchange]
      split
      · exact h.pending m hm
      · exact h.first
    · rw [hpc] at hm'
      cases hm'
    · rw [hchecks, hreads]
      exact h.loads

theorem RaceInv.check {id : ℕ} {w' : ProgressWatchdog} {pc' : CheckPc} (h : RaceInv N L s)
    (hs : checkOp s.w s.clock (s.checks id) = some (w', pc')) :
    RaceInv N L (s.setCheck id w' pc') := by
  obtain ⟨⟨b, rfl⟩, -⟩ := checkOp_spec hs
  refine ⟨h.noProgress, h.lifetime, h.first, h.pending, fun id' i snap hi => ?_⟩
  rcases loading_of_setCheck hs hi with hkept | ⟨rfl, -⟩ | ⟨j, snap', hj, hlt, rfl, rfl⟩
  · exact h.loads id' i snap hkept
  · exact ⟨by omega, fun h5 => by omega⟩
  · refine ⟨by omega, fun h5 => ?_⟩
    rw [load_firstRequestMs]
    split
    · exact h.first
    · exact (h.loads id j snap' hj).2 (by omega)

theorem RaceInv.step (h : RaceInv N L s) (hs : interleaving.step s a = some s') :
    RaceInv N L s' := by
  cases a with
  | tick ms =>
    cases hs
    exact ⟨h.noProgress, h.lifetime, h.first, h.pending, h.loads⟩
  | loop ok => exact h.loop hs
  | check id =>
    obtain ⟨⟨w', pc'⟩, hop, rfl⟩ := Option.map_eq_some_iff.mp hs
    exact h.check hop

/-! ### The race -/

/-- A request is counted, and neither it nor a success is stamped. -/
def HealthSnapshot.Torn (snap : HealthSnapshot) : Prop :=
  0 < snap.totalRequests ∧ snap.lastSuccessMs = 0 ∧ snap.firstRequestMs = 0

/-- A step that returns "no success timeout" does so after some `request_start` has read the clock
more than `N` seconds before. -/
def NoSuccessFounded (N : ℕ) (s : Shared) (a : Act) (s' : Shared) : Prop :=
  ∀ id n, a = .check id → s'.checks id = .fired .noSuccess n →
    ∃ t ∈ s.startReads, t + 1000 * N < n

/-- A step that completes a torn snapshot does so before the process is `N` seconds old, or after
its lifetime limit, or with the clock of the first `request_start` already `N` seconds behind. -/
def NoTornSnapshot (N L : ℕ) (s : Shared) (a : Act) (_ : Shared) : Prop :=
  ∀ id snap, a = .check id → s.checks id = .loading 7 snap → snap.Torn →
    s.clock < 1000 * N ∨ (0 < L ∧ 1000 * L ≤ s.clock) ∨ ∃ t ∈ s.startReads, t + 1000 * N < s.clock

theorem decided_eq_noSuccess {w : ProgressWatchdog} {snap : HealthSnapshot} {n : ℕ} :
    decided w snap = .fired .noSuccess n ↔
      snap.nowMs = n ∧ ¬ LifetimeReached w snap ∧ NoSuccess w snap := by
  rw [← reason_eq_noSuccess, decided]
  cases snap.reason w <;> simp [and_comm]

/-- **What a complete snapshot decides**, against the readings of `request_start`. -/
theorem founded_iff_of_snapshot (hN : 0 < N) {w : ProgressWatchdog} {snap : HealthSnapshot}
    {reads : List ℕ} (now : ℕ) (hwN : w.maxNoProgressSecs = N) (hwL : w.maxLifetimeSecs = L)
    (hfirst : FromRead reads snap.firstRequestMs) :
    (∀ n, decided w { snap with nowMs := now } = .fired .noSuccess n →
        ∃ t ∈ reads, t + 1000 * N < n) ↔
      (snap.Torn → now < 1000 * N ∨ (0 < L ∧ 1000 * L ≤ now) ∨ ∃ t ∈ reads, t + 1000 * N < now) := by
  have hlife : LifetimeReached w { snap with nowMs := now } ↔ 0 < L ∧ 1000 * L ≤ now := by
    simp only [LifetimeReached, hwL]
    omega
  have hno : NoSuccess w { snap with nowMs := now } ↔
      0 < snap.totalRequests ∧ snap.lastSuccessMs = 0 ∧ snap.firstRequestMs + 1000 * N ≤ now := by
    simp only [NoSuccess, hwN, le_ageSecs hN, hN, true_and]
  simp only [decided_eq_noSuccess, hlife, hno]
  constructor
  · rintro h ⟨htotal, hsucc, hzero⟩
    rw [hzero, Nat.zero_add] at h
    by_cases hold : now < 1000 * N
    · exact Or.inl hold
    · by_cases hl : 0 < L ∧ 1000 * L ≤ now
      · exact Or.inr (Or.inl hl)
      · exact Or.inr (Or.inr (h now ⟨rfl, hl, htotal, hsucc, Nat.not_lt.mp hold⟩))
  · rintro h n ⟨rfl, hl, htotal, hsucc, hage⟩
    rcases hfirst with hzero | ⟨t, ht, hstamp⟩
    · rcases h ⟨htotal, hsucc, hzero⟩ with hyoung | hlife' | hfound
      · omega
      · exact absurd hlife' hl
      · exact hfound
    · exact ⟨t, ht, by omega⟩

theorem loading_of_fired {w w' : ProgressWatchdog} {now n : ℕ} {pc : CheckPc} {r : Reason}
    (h : checkOp w now pc = some (w', .fired r n)) : ∃ i snap, pc = .loading i snap ∧ 7 ≤ i := by
  obtain ⟨-, hpc | hpc | ⟨i, snap, hi, ⟨-, hpc⟩ | ⟨hle, -⟩⟩⟩ := checkOp_spec h
  · cases hpc
  · cases hpc
  · cases hpc
  · exact ⟨i, snap, hi, hle⟩

/-- **One step**: the reason is founded exactly when no torn snapshot is completed. -/
theorem founded_iff_noTorn (hN : 0 < N) (h : RaceInv N L s)
    (hs : interleaving.step s a = some s') :
    NoSuccessFounded N s a s' ↔ NoTornSnapshot N L s a s' := by
  cases a with
  | tick ms => exact iff_of_true nofun nofun
  | loop ok => exact iff_of_true nofun nofun
  | check id =>
    obtain ⟨⟨w', pc'⟩, hop, rfl⟩ := Option.map_eq_some_iff.mp hs
    have hself : (s.setCheck id w' pc').checks id = pc' := Function.update_self ..
    by_cases hload : ∃ snap, s.checks id = .loading 7 snap
    · obtain ⟨snap, hsnap⟩ := hload
      have hiff := founded_iff_of_snapshot hN s.clock h.noProgress h.lifetime
        ((h.loads id 7 snap hsnap).2 (by omega))
      rw [hsnap] at hop
      cases hop
      constructor
      · intro hF id' snap' hid hsnap'
        cases hid
        cases hsnap.symm.trans hsnap'
        exact hiff.mp fun n hn => hF id n rfl (hself.trans hn)
      · intro hT id' n hid hn
        cases hid
        exact hiff.mpr (hT id snap rfl hsnap) n (hself.symm.trans hn)
    · refine iff_of_true (fun id' n hid hn => ?_) fun id' snap hid hsnap => ?_
      · cases hid
        obtain rfl : pc' = _ := hself.symm.trans hn
        obtain ⟨i, snap, hi, hle⟩ := loading_of_fired hop
        obtain rfl : i = 7 := Nat.le_antisymm (h.loads id i snap hi).1 hle
        exact absurd ⟨snap, hi⟩ hload
      · cases hid
        exact absurd ⟨snap, hsnap⟩ hload

/-! ### The window -/

/-- The request loop has counted a request and not yet offered its stamp. -/
def LoopPc.inWindow : LoopPc → Bool
  | .counted | .clockRead _ => true
  | _ => false

/-- The request loop is in the first `request_start`, between the `fetch_add` and the
`compare_exchange`. -/
def Shared.InWindow (s : Shared) : Prop := s.loop.inWindow = true ∧ s.w.firstRequestMs = 0

instance (s : Shared) : Decidable s.InWindow := inferInstanceAs (Decidable (_ ∧ _))

/-- While no first stamp is set, the loop is in the window, or nothing is counted and no snapshot
has loaded a count. -/
structure WindowInv (s : Shared) : Prop where
  pending : ∀ m, s.loop = .clockRead m → m ≠ 0
  unstamped : s.w.firstRequestMs = 0 → s.loop.inWindow = true ∨
    (s.loop = .idle ∧ s.w.totalRequests = 0 ∧
      ∀ id i snap, s.checks id = .loading i snap → snap.totalRequests = 0)

theorem WindowInv.initial : WindowInv (.initial N M L) :=
  ⟨nofun, fun _ => Or.inr ⟨rfl, rfl, nofun⟩⟩

/-- Outside the window and after the first count the stamp is set. -/
theorem WindowInv.stamped (h : WindowInv s) (hw : s.loop.inWindow = false) (hi : s.loop ≠ .idle) :
    s.w.firstRequestMs ≠ 0 := by
  intro hz
  rcases h.unstamped hz with hin | ⟨hidle, -⟩
  · rw [hw] at hin
    cases hin
  · exact hi hidle

theorem WindowInv.loop {ok : Bool} (h : WindowInv s) (hs : loopOp s ok = some s') :
    WindowInv s' := by
  have hset : ∀ pc, s.loop = pc → pc.inWindow = false → pc ≠ .idle → s.w.firstRequestMs ≠ 0 := by
    rintro _ rfl hw hi
    exact h.stamped hw hi
  unfold loopOp at hs
  split at hs <;> cases hs
  case h_1 => exact ⟨nofun, fun _ => Or.inl rfl⟩
  case h_2 =>
    refine ⟨fun m hm => ?_, fun _ => Or.inl rfl⟩
    cases hm
    exact Nat.succ_ne_zero _
  case h_3 m hm =>
    refine ⟨nofun, fun hz => ?_⟩
    simp only [compareExchange] at hz
    split at hz
    · exact absurd hz (h.pending m hm)
    · contradiction
  case h_5 hpc =>
    have := hset _ hpc rfl nofun
    refine ⟨fun m hm => ?_, fun hz => absurd hz this⟩
    cases ok <;> cases hm
  case h_8 hpc =>
    have := hset _ hpc rfl nofun
    refine ⟨fun m hm => ?_, fun hz => absurd hz this⟩
    cases hx : s.w.responseOkExit <;> simp [hx] at hm
  all_goals
    rename_i hpc
    have := hset _ hpc rfl nofun
    exact ⟨nofun, fun hz => absurd hz this⟩

theorem load_totalRequests (w : ProgressWatchdog) (now i : ℕ) (snap : HealthSnapshot) :
    (load w now i snap).totalRequests = if i = 0 then w.totalRequests else snap.totalRequests := by
  unfold load
  split <;> simp_all

theorem WindowInv.check {id : ℕ} {w' : ProgressWatchdog} {pc' : CheckPc} (h : WindowInv s)
    (hs : checkOp s.w s.clock (s.checks id) = some (w', pc')) :
    WindowInv (s.setCheck id w' pc') := by
  obtain ⟨⟨b, rfl⟩, -⟩ := checkOp_spec hs
  refine ⟨h.pending, fun hz => ?_⟩
  rcases h.unstamped hz with hin | ⟨hidle, htotal, hloads⟩
  · exact Or.inl hin
  · refine Or.inr ⟨hidle, htotal, fun id' i snap hi => ?_⟩
    rcases loading_of_setCheck hs hi with hkept | ⟨-, rfl⟩ | ⟨j, snap', hj, -, -, rfl⟩
    · exact hloads id' i snap hkept
    · rfl
    · rw [load_totalRequests, htotal, hloads id j snap' hj, ite_self]

theorem WindowInv.step (h : WindowInv s) (hs : interleaving.step s a = some s') :
    WindowInv s' := by
  cases a with
  | tick ms =>
    cases hs
    exact ⟨h.pending, h.unstamped⟩
  | loop ok => exact h.loop hs
  | check id =>
    obtain ⟨⟨w', pc'⟩, hop, rfl⟩ := Option.map_eq_some_iff.mp hs
    exact h.check hop

/-- **The window.** A check that has loaded a nonzero count and is about to load an unset first
stamp finds the request loop between the `fetch_add` and the `compare_exchange` of the first
request. -/
theorem torn_window (h : WindowInv s) {id i : ℕ} {snap : HealthSnapshot}
    (hload : s.checks id = .loading i snap) (htotal : 0 < snap.totalRequests)
    (hfirst : s.w.firstRequestMs = 0) : s.InWindow := by
  rcases h.unstamped hfirst with hin | ⟨-, -, hloads⟩
  · exact ⟨hin, hfirst⟩
  · rw [hloads id i snap hload] at htotal
    exact absurd htotal (Nat.lt_irrefl 0)

/-- A check about to load the first stamp, with a nonzero count in its snapshot. -/
def CheckPc.loadsStamp : CheckPc → Bool
  | .loading i snap => i = 5 ∧ 0 < snap.totalRequests
  | _ => false

/-- A check that has loaded a nonzero count does not load the first stamp in the window. -/
def LoadsOutsideWindow (s : Shared) (a : Act) (_ : Shared) : Prop :=
  match a with
  | .check id => (s.checks id).loadsStamp = true → ¬ s.InWindow
  | _ => True

instance : ∀ s a s', Decidable (LoadsOutsideWindow s a s')
  | s, .check id, _ =>
    inferInstanceAs (Decidable ((s.checks id).loadsStamp = true → ¬ s.InWindow))
  | _, .tick _, _ | _, .loop _, _ => isTrue trivial

/-- A snapshot with a nonzero count has loaded a first stamp that is set. -/
structure Untorn (s : Shared) : Prop extends WindowInv s where
  loaded : ∀ id i snap, s.checks id = .loading i snap → 5 < i → 0 < snap.totalRequests →
    snap.firstRequestMs ≠ 0

theorem Untorn.step (h : Untorn s) (hout : LoadsOutsideWindow s a s')
    (hs : interleaving.step s a = some s') : Untorn s' := by
  refine ⟨h.toWindowInv.step hs, fun id' i snap hi h5 htotal => ?_⟩
  cases a with
  | tick ms =>
    cases hs
    exact h.loaded id' i snap hi h5 htotal
  | loop ok =>
    obtain ⟨-, hchecks, -⟩ := loopOp_spec hs
    rw [hchecks] at hi
    exact h.loaded id' i snap hi h5 htotal
  | check id =>
    obtain ⟨⟨w', pc'⟩, hop, rfl⟩ := Option.map_eq_some_iff.mp hs
    rcases loading_of_setCheck hop hi with hkept | ⟨rfl, -⟩ | ⟨j, snap', hj, hlt, rfl, rfl⟩
    · exact h.loaded id' i snap hkept h5 htotal
    · omega
    · rw [load_totalRequests] at htotal
      rw [load_firstRequestMs]
      rw [if_neg (by omega)] at htotal
      split
      next h5' =>
        have hstamp : (s.checks id).loadsStamp = true := by simp [hj, CheckPc.loadsStamp, h5', htotal]
        exact fun hzero => hout hstamp (torn_window h.toWindowInv hj htotal hzero)
      next h5' => exact h.loaded id j snap' hj (by omega) htotal

/-- **Outside the window no snapshot is torn.** -/
theorem noTornSnapshot_of_window (N M L : ℕ) {acts : List Act}
    (h : interleaving.Every LoadsOutsideWindow (.initial N M L) acts) :
    interleaving.Every (NoTornSnapshot N L) (.initial N M L) acts := by
  refine h.imp (I := Untorn) (fun _ _ _ hI hout hs => hI.step hout hs) ?_ ⟨WindowInv.initial, nofun⟩
  rintro s a s' hI - - id snap - hsnap ⟨htotal, -, hzero⟩
  exact absurd hzero (hI.loaded id 7 snap hsnap (by omega) htotal)

/-- **Exactly which interleavings are free of an unfounded "no success timeout"**: those that
complete no torn snapshot once the process is `N` seconds old. -/
theorem race_iff (N M L : ℕ) (hN : 0 < N) (acts : List Act) :
    interleaving.Every (NoSuccessFounded N) (.initial N M L) acts ↔
      interleaving.Every (NoTornSnapshot N L) (.initial N M L) acts :=
  Machine.every_congr (fun _ _ _ h hs => h.step hs) (fun _ _ _ h hs => founded_iff_noTorn hN h hs)
    RaceInv.initial

/-- A worker idle for a second counts its first request, and a check loads seven values before the
request is stamped. -/
def tornRun : List Act := [.tick 1000, .loop true] ++ List.replicate 8 (.check 0)

/-- The check returns "no success timeout" though no request has read the clock. -/
theorem tornRun_unfounded :
    ¬ interleaving.Every (NoSuccessFounded 1) (.initial 1 0 0) (tornRun ++ [.check 0]) := by
  intro h
  have hlast := h.last rfl rfl
  obtain ⟨t, ht, -⟩ := hlast 0 1000 rfl rfl
  cases ht

/-- The same check is harmless when the request is stamped before it starts. -/
theorem race_harmless :
    interleaving.Every (NoSuccessFounded 1) (.initial 1 0 0)
      ([.tick 1000, .loop true, .loop true, .loop true] ++ List.replicate 10 (.check 0)) :=
  (race_iff 1 0 0 (by decide) _).mpr (noTornSnapshot_of_window 1 0 0 (by decide))

end FrigateZmqDetector.Watchdog
