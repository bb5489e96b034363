import Mathlib.Data.List.GetD
import FrigateZmqDetector.Tflite.Manager

/-!
# The detection table

What post-processing is for: the four output tensors stand for a list of candidates, and the reply
for the table of those that are emitted. `SsdOutputs.row` and `SsdOutputs.emitted` are the table in
terms of the tensors alone, with missing values read as zero; `post_process_table` says that the
bytes decode to it.

The threshold is a comparison that a NaN does not fail, so a candidate without a meaningful score
is emitted. `min_score_iff` says exactly when that does not happen.
-/

namespace FrigateZmqDetector.Tflite

open Lib Lib.Eff

/-- The contents of the four output tensors. -/
structure SsdOutputs where
  boxes : List Binary32
  classIds : List Binary32
  scores : List Binary32
  count : List Binary32
  deriving DecidableEq, Repr

namespace SsdOutputs

variable (o : SsdOutputs)

def score (i : ℕ) : Binary32 := o.scores.getD i .zero

/-- The number of candidates: the first count, cast to an integer, but no more than 20; none if the
tensor is empty. -/
def candidates : ℕ :=
  match o.count with
  | [] => 0
  | count :: _ => min count.toUsize 20

/-- The candidates before the first one whose score is below the minimum. -/
def emitted : ℕ :=
  ((List.range o.candidates).takeWhile fun i => !(o.score i).lt minScore).length

/-- Class, score, and the four coordinates of the box. -/
def row (i : ℕ) : List Binary32 :=
  [o.classIds.getD i .zero, o.score i, o.boxes.getD (i * 4) .zero, o.boxes.getD (i * 4 + 1) .zero,
    o.boxes.getD (i * 4 + 2) .zero, o.boxes.getD (i * 4 + 3) .zero]

/-- **The table**: the emitted candidates in order, and zeros. -/
def table : List Binary32 :=
  (List.range maxDetections).flatMap fun i =>
    if i < o.emitted then o.row i else List.replicate 6 .zero

end SsdOutputs

/-- That is the bound of the loop. -/
theorem SsdOutputs.candidates_eq (o : SsdOutputs) : o.candidates = detCount o.count := by
  unfold candidates detCount
  cases o.count <;> rfl

/-- Row `i` of a table of six columns. -/
def tableRow (xs : List Binary32) (i : ℕ) : List Binary32 :=
  (List.range 6).map fun j => xs.getD (i * 6 + j) .zero

variable {W : Type} {lib : EdgefirstTflite W} {interp : Interpreter} {w w' : W} {o : SsdOutputs}
  {detections : List Binary32} {i j : ℕ}

/-- Tensor `i` of the list holds these floats. -/
def ReadsAt (lib : EdgefirstTflite W) (w : W) (tensors : List Tensor) (i : ℕ)
    (xs : List Binary32) : Prop :=
  ∃ t, tensors[i]? = some t ∧ lib.asSliceF32 t w = .ok xs

/-- The output tensors of the interpreter can be read, and hold `o`. -/
def Reads (lib : EdgefirstTflite W) (interp : Interpreter) (w : W) (o : SsdOutputs) : Prop :=
  ∃ tensors, lib.outputs interp w = .ok tensors ∧ ReadsAt lib w tensors 0 o.boxes ∧
    ReadsAt lib w tensors 1 o.classIds ∧ ReadsAt lib w tensors 2 o.scores ∧
    ReadsAt lib w tensors 3 o.count

/-! ### Rows -/

theorem getD_set_ne {xs : List Binary32} {a b : ℕ} (h : a ≠ b) (x : Binary32) :
    (xs.set a x).getD b .zero = xs.getD b .zero := by
  rw [List.getD_eq_getElem?_getD, List.getD_eq_getElem?_getD, List.getElem?_set_ne h]

theorem getD_set_self {xs : List Binary32} {a : ℕ} (h : a < xs.length) (x : Binary32) :
    (xs.set a x).getD a .zero = x := by
  rw [List.getD_eq_getElem?_getD, List.getElem?_set_self h]
  rfl

/-- **A written row is the only one that changes.** -/
theorem tableRow_withRow (hd : detections.length = maxDetections * 6) (hi : i < maxDetections) :
    tableRow (withRow o.boxes o.classIds i (o.score i) detections) j =
      if j = i then o.row i else tableRow detections j := by
  have hlen : i * 6 + 6 ≤ detections.length := by
    rw [hd]
    omega
  split_ifs with hj
  · subst hj
    simp only [tableRow, List.range_succ, List.range_zero, List.nil_append, List.cons_append,
      List.map_cons, List.map_nil, SsdOutputs.row, withRow, Nat.add_zero]
    simp (disch := first | omega | (simp only [List.length_set]; omega)) only
      [getD_set_ne, getD_set_self]
  · refine List.map_congr_left fun k hk => ?_
    have hk6 : k < 6 := List.mem_range.mp hk
    simp (disch := omega) only [withRow, getD_set_ne]

theorem tableRow_replicate (n i : ℕ) :
    tableRow (List.replicate n .zero) i = List.replicate 6 .zero := by
  have hzero : ∀ m, (List.replicate n Binary32.zero).getD m .zero = .zero := by
    intro m
    rw [List.getD_eq_getElem?_getD, List.getElem?_replicate]
    split_ifs <;> rfl
  simp only [tableRow, hzero]
  rfl

theorem getD_take {xs : List Binary32} {a b : ℕ} (h : b < a) :
    (xs.take a).getD b .zero = xs.getD b .zero := by
  rw [List.getD_eq_getElem?_getD, List.getD_eq_getElem?_getD, List.getElem?_take_of_lt h]

/-- **A table is its rows.** -/
theorem eq_flatMap_tableRow {xs : List Binary32} (n : ℕ) (h : xs.length = n * 6) :
    xs = (List.range n).flatMap (tableRow xs) := by
  induction n generalizing xs with
  | zero => exact List.eq_nil_of_length_eq_zero (h.trans (Nat.zero_mul 6))
  | succ n ih =>
    have hinit : xs.take (n * 6) = (List.range n).flatMap (tableRow xs) := by
      have hlen : (xs.take (n * 6)).length = n * 6 := by
        rw [List.length_take]
        omega
      refine (ih hlen).trans (List.flatMap_congr fun i hi => ?_)
      refine List.map_congr_left fun j hj => getD_take ?_
      have hi' := List.mem_range.mp hi
      have hj' := List.mem_range.mp hj
      omega
    have hlast : xs.drop (n * 6) = tableRow xs n := by
      refine List.ext_getElem (by simp [tableRow]; omega) fun j hj _ => ?_
      rw [List.length_drop] at hj
      simp only [tableRow, List.getElem_drop, List.getElem_map, List.getElem_range]
      exact (List.getD_eq_getElem _ _ _).symm
    rw [List.range_succ, List.flatMap_append, List.flatMap_singleton, ← hinit, ← hlast,
      List.take_append_drop]

/-! ### The loop -/

/-- **What the loop writes**: from `i` on, the rows up to the first score below the minimum. -/
theorem run_detectionLoop (o : SsdOutputs) (n i : ℕ) (hd : detections.length = maxDetections * 6)
    (hn : i + n ≤ maxDetections) (w : W) :
    ∃ ds, (detectionLoop o.boxes o.classIds o.scores n i detections).run w = (.ok ds, w) ∧
      ds.length = maxDetections * 6 ∧
      ∀ j, tableRow ds j =
        if i ≤ j ∧ j < i + ((List.range' i n).takeWhile fun i => !(o.score i).lt minScore).length
        then o.row j else tableRow detections j := by
  induction n generalizing i detections with
  | zero =>
    refine ⟨detections, rfl, hd, fun j => (if_neg ?_).symm⟩
    rw [List.range'_zero, List.takeWhile_nil, List.length_nil]
    omega
  | succ n ih =>
    unfold detectionLoop
    have hi : i < maxDetections := by omega
    rw [List.range'_succ]
    cases hscore : (o.score i).lt minScore with
    | true =>
      have hstop : (o.scores.getD i .zero).lt minScore ∨ maxDetections ≤ i := Or.inl hscore
      rw [if_pos hstop, List.takeWhile_cons_of_neg (by simp [hscore])]
      refine ⟨detections, rfl, hd, fun j => (if_neg ?_).symm⟩
      rw [List.length_nil]
      omega
    | false =>
      have hgo : ¬ ((o.scores.getD i .zero).lt minScore ∨ maxDetections ≤ i) := by
        rintro (hlt | hge)
        · exact Bool.false_ne_true (hscore.symm.trans hlt)
        · omega
      rw [if_neg hgo, List.takeWhile_cons_of_pos (by simp [hscore]), List.length_cons,
        run_bind_of_ok (run_writeDetection o.boxes o.classIds hi hd (o.scores.getD i .zero) w)]
      obtain ⟨ds, hrun, hlen, hrows⟩ := ih (i + 1) ((length_withRow ..).trans hd) (by omega)
      refine ⟨ds, hrun, hlen, fun j => ?_⟩
      rw [hrows j]
      change (if _ then _ else tableRow (withRow o.boxes o.classIds i (o.score i) detections) j) = _
      rw [tableRow_withRow hd hi]
      by_cases hj : j = i
      · subst hj
        rw [if_neg (by omega), if_pos rfl, if_pos (by omega)]
      · rw [if_neg hj]
        congr 1
        rw [eq_iff_iff]
        omega

theorem SsdOutputs.candidates_le (o : SsdOutputs) : o.candidates ≤ maxDetections := by
  unfold candidates
  split
  · exact Nat.zero_le _
  · exact Nat.min_le_right _ _

/-- **The loop fills in the table.** -/
theorem run_detectionLoop_table (o : SsdOutputs) (w : W) :
    (detectionLoop o.boxes o.classIds o.scores (detCount o.count) 0
        (List.replicate (maxDetections * 6) .zero)).run w = (.ok o.table, w) ∧
      o.table.length = maxDetections * 6 ∧
      ∀ i < maxDetections, tableRow o.table i =
        if i < o.emitted then o.row i else List.replicate 6 .zero := by
  rw [← o.candidates_eq]
  obtain ⟨ds, hrun, hlen, hrows⟩ := run_detectionLoop o o.candidates 0
    (List.length_replicate ..) ((Nat.zero_add _).trans_le o.candidates_le) w
  have hrow : ∀ i, tableRow ds i =
      if i < o.emitted then o.row i else List.replicate 6 .zero := by
    intro i
    rw [hrows i, tableRow_replicate]
    congr 1
    rw [SsdOutputs.emitted, List.range_eq_range', Nat.zero_add, eq_iff_iff]
    exact and_iff_right (Nat.zero_le i)
  have htable : ds = o.table := by
    rw [eq_flatMap_tableRow maxDetections hlen, SsdOutputs.table]
    exact List.flatMap_congr fun i _ => hrow i
  subst htable
  exact ⟨hrun, hlen, fun i _ => hrow i⟩

/-! ### Which candidates are emitted -/

theorem lt_length_takeWhile_range' {p : ℕ → Bool} {a n m : ℕ} :
    m < ((List.range' a n).takeWhile p).length ↔ m < n ∧ ∀ k ≤ m, p (a + k) = true := by
  induction n generalizing a m with
  | zero => simp
  | succ n ih =>
    rw [List.range'_succ]
    cases hp : p a with
    | false =>
      rw [List.takeWhile_cons_of_neg (by simp [hp]), List.length_nil]
      refine iff_of_false (Nat.not_lt_zero m) fun h => ?_
      have := h.2 0 (Nat.zero_le m)
      rw [Nat.add_zero, hp] at this
      cases this
    | true =>
      rw [List.takeWhile_cons_of_pos hp, List.length_cons]
      cases m with
      | zero =>
        refine iff_of_true (Nat.succ_pos _) ⟨Nat.succ_pos n, fun k hk => ?_⟩
        rw [Nat.le_zero.mp hk, Nat.add_zero, hp]
      | succ m =>
        rw [Nat.add_lt_add_iff_right, ih, Nat.add_lt_add_iff_right]
        refine and_congr_right fun _ => ⟨fun h k hk => ?_, fun h k hk => ?_⟩
        · cases k with
          | zero => rw [Nat.add_zero, hp]
          | succ k => rw [← h k (by omega), Nat.add_right_comm, Nat.add_assoc]
        · rw [← h (k + 1) (by omega), Nat.add_right_comm, Nat.add_assoc]

/-- **An emitted candidate and all before it have no score below the minimum.** -/
theorem lt_emitted : i < o.emitted ↔
    i < o.candidates ∧ ∀ j ≤ i, (o.score j).lt minScore = false := by
  unfold SsdOutputs.emitted
  rw [List.range_eq_range', lt_length_takeWhile_range']
  simp only [Nat.zero_add, Bool.not_eq_true']

theorem minScore_isNaN : minScore.isNaN = false := by decide

/-- The score of a missing candidate is below the minimum. -/
theorem lt_length_of_le (h : minScore.le (o.score j) = true) : j < o.scores.length := by
  by_contra hj
  have hzero : o.score j = .zero := by
    rw [SsdOutputs.score, List.getD_eq_getElem?_getD, List.getElem?_eq_none (by omega)]
    rfl
  rw [hzero] at h
  exact absurd h (by decide)

/-- **With scores in order, the emitted candidates are those that reach the minimum.** -/
theorem lt_emitted_of_sorted (hnan : ∀ x ∈ o.scores, x.isNaN = false)
    (hsorted : o.scores.Pairwise fun x y => y.le x = true) :
    i < o.emitted ↔ i < o.candidates ∧ minScore.le (o.score i) = true := by
  have hscore : ∀ {j}, j < o.scores.length → (o.score j).isNaN = false := by
    intro j hj
    rw [SsdOutputs.score, List.getD_eq_getElem _ _ hj]
    exact hnan _ (List.getElem_mem hj)
  have hzero : Binary32.zero.isNaN = false := by decide
  have hscores : ∀ j, (o.score j).isNaN = false := by
    intro j
    by_cases hj : j < o.scores.length
    · exact hscore hj
    · rw [SsdOutputs.score, List.getD_eq_default _ _ (by omega), hzero]
  rw [lt_emitted]
  refine and_congr_right fun _ => ⟨fun h => ?_, fun h j hj => ?_⟩
  · rcases (Binary32.lt_eq_false_iff minScore_isNaN).mp (h i le_rfl) with hn | hle
    · rw [hscores i] at hn
      cases hn
    · exact hle
  · -- an earlier score is at least as large
    refine (Binary32.lt_eq_false_iff minScore_isNaN).mpr (Or.inr ?_)
    rcases Nat.lt_or_eq_of_le hj with hlt | rfl
    · have hi := lt_length_of_le h
      have hpair := List.pairwise_iff_getElem.mp hsorted j i (by omega) hi hlt
      refine Binary32.le_trans h ?_
      rw [SsdOutputs.score, SsdOutputs.score, List.getD_eq_getElem _ _ hi,
        List.getD_eq_getElem _ _ (by omega)]
      exact hpair
    · exact h

/-! ### The reply -/

/-- **Post-processing is the table.** -/
theorem run_postProcessSsd (h : Reads lib interp w o) :
    (postProcessSsd lib interp).run w = (.ok (Binary32.listToLeBytes o.table), w) := by
  obtain ⟨tensors, hout, ⟨b, hb, hboxes⟩, ⟨c, hc, hclass⟩, ⟨s, hs, hscores⟩, n, hn, hcount⟩ := h
  have hlen : ¬ tensors.length < 4 := by
    have := (List.getElem?_eq_some_iff.mp hn).1
    omega
  unfold postProcessSsd
  rw [run_bind_of_ok (run_nativeRead hout _), if_neg hlen,
    run_bind_of_ok (run_index_of_some hb), run_bind_of_ok (run_nativeRead hboxes _),
    run_bind_of_ok (run_index_of_some hc), run_bind_of_ok (run_nativeRead hclass _),
    run_bind_of_ok (run_index_of_some hs), run_bind_of_ok (run_nativeRead hscores _),
    run_bind_of_ok (run_index_of_some hn), run_bind_of_ok (run_nativeRead hcount _),
    run_bind_of_ok (run_detectionLoop_table o w).1]
  rfl

theorem tableRow_decoded (o : SsdOutputs) (hi : i < maxDetections) :
    tableRow (Binary32.listOfLeBytes (Binary32.listToLeBytes o.table)) i =
      if i < o.emitted then o.row i else List.replicate 6 .zero := by
  rw [Binary32.listOfLeBytes_listToLeBytes]
  exact (run_detectionLoop_table o ()).2.2 i hi

/-- **The documented table.** The reply is 480 bytes, which decode to 20 rows: the emitted
candidates in order, and zeros. With scores in order and no NaN among them, the emitted candidates
are all those that reach the minimum. -/
theorem post_process_table (h : Reads lib interp w o) :
    ∃ bytes, (postProcessSsd lib interp).run w = (.ok bytes, w) ∧ bytes.length = 480 ∧
      (∀ i < o.emitted, i < maxDetections ∧ tableRow (Binary32.listOfLeBytes bytes) i = o.row i) ∧
      (∀ i, o.emitted ≤ i → i < maxDetections →
        tableRow (Binary32.listOfLeBytes bytes) i = List.replicate 6 .zero) ∧
      ((∀ x ∈ o.scores, x.isNaN = false) → o.scores.Pairwise (fun x y => y.le x = true) →
        ∀ i, i < o.emitted ↔ i < o.candidates ∧ minScore.le (o.score i) = true) := by
  refine ⟨_, run_postProcessSsd h, ?_, fun i hi => ?_, fun i hi hmax => ?_,
    fun hnan hsorted i => lt_emitted_of_sorted hnan hsorted⟩
  · rw [Binary32.length_listToLeBytes, (run_detectionLoop_table o ()).2.1]
    rfl
  · have hmax : i < maxDetections := (lt_emitted.mp hi).1.trans_le o.candidates_le
    rw [tableRow_decoded o hmax, if_pos hi]
    exact ⟨hmax, rfl⟩
  · rw [tableRow_decoded o hmax, if_neg (by omega)]

/-- The small library with four output tensors. -/
def outputTflite (o : SsdOutputs) : EdgefirstTflite Unit :=
  { smallTflite with
    outputs := fun _ _ => .ok [⟨0⟩, ⟨1⟩, ⟨2⟩, ⟨3⟩]
    asSliceF32 := fun t _ => .ok ([o.boxes, o.classIds, o.scores, o.count].getD t.addr []) }

theorem reads_outputTflite (o : SsdOutputs) (interp : Interpreter) :
    Reads (outputTflite o) interp () o :=
  ⟨_, rfl, ⟨_, rfl, rfl⟩, ⟨_, rfl, rfl⟩, ⟨_, rfl, rfl⟩, _, rfl, rfl⟩

/-- A count of three, with a score of one half, one that is too low, and one that is missing. -/
def twoScores : SsdOutputs where
  boxes := [⟨0x3E800000⟩, ⟨0x3F000000⟩, ⟨0x3F400000⟩, ⟨0x3F800000⟩]
  classIds := [⟨0x40000000⟩]
  scores := [⟨0x3F000000⟩, ⟨0x3DCCCCCD⟩]
  count := [⟨0x40400000⟩]

/-- A count of two, with three scores of one half. -/
def threeScores : SsdOutputs where
  boxes := []
  classIds := [⟨0x40000000⟩, ⟨0x40400000⟩, ⟨0x40800000⟩]
  scores := [⟨0x3F000000⟩, ⟨0x3F000000⟩, ⟨0x3F000000⟩]
  count := [⟨0x40000000⟩]

/-- Of the former only the first candidate is in the table, of the latter the first two. -/
theorem post_process_table_two :
    (∃ bytes, (postProcessSsd (outputTflite twoScores) ⟨4⟩).run () = (.ok bytes, ()) ∧
      tableRow (Binary32.listOfLeBytes bytes) 0 = [⟨0x40000000⟩, ⟨0x3F000000⟩, ⟨0x3E800000⟩,
        ⟨0x3F000000⟩, ⟨0x3F400000⟩, ⟨0x3F800000⟩] ∧
      tableRow (Binary32.listOfLeBytes bytes) 1 = List.replicate 6 .zero) ∧
    ∃ bytes, (postProcessSsd (outputTflite threeScores) ⟨4⟩).run () = (.ok bytes, ()) ∧
      tableRow (Binary32.listOfLeBytes bytes) 1 =
        [⟨0x40400000⟩, ⟨0x3F000000⟩, .zero, .zero, .zero, .zero] ∧
      tableRow (Binary32.listOfLeBytes bytes) 2 = List.replicate 6 .zero := by
  constructor
  · obtain ⟨bytes, hrun, -, hrows, hzeros, hall⟩ :=
      post_process_table (reads_outputTflite twoScores ⟨4⟩)
    have hemitted := hall (by decide) (by decide)
    exact ⟨bytes, hrun, (hrows 0 ((hemitted 0).mpr (by decide))).2,
      hzeros 1 (Nat.le_of_not_lt fun h => absurd ((hemitted 1).mp h) (by decide)) (by decide)⟩
  · obtain ⟨bytes, hrun, -, hrows, hzeros, hall⟩ :=
      post_process_table (reads_outputTflite threeScores ⟨4⟩)
    have hemitted := hall (by decide) (by decide)
    exact ⟨bytes, hrun, (hrows 1 ((hemitted 1).mpr (by decide))).2,
      hzeros 2 (Nat.le_of_not_lt fun h => absurd ((hemitted 2).mp h) (by decide)) (by decide)⟩

/-! ### Candidates without a meaningful score -/

/-- Reading one tensor, and what follows. -/
theorem readsAt_of_ok {α : Type} {tensors : List Tensor} {text : String → String}
    {f : List Binary32 → Fallible W α} {a : α}
    (h : (index tensors i >>= fun t => nativeRead (lib.asSliceF32 t) text >>= f).run w =
      (.ok a, w')) : ∃ xs, ReadsAt lib w tensors i xs ∧ (f xs).run w = (.ok a, w') := by
  obtain ⟨t, w₁, hindex, hrest⟩ := run_bind_eq_ok h
  obtain ⟨ht, rfl⟩ := run_index_eq_ok hindex
  obtain ⟨xs, w₂, hread, hf⟩ := run_bind_eq_ok hrest
  obtain ⟨hxs, rfl⟩ := run_nativeRead_eq_ok hread
  exact ⟨xs, ⟨t, ht, hxs⟩, hf⟩

/-- A reply comes from four tensors that could be read. -/
theorem reads_of_ok {bytes : Bytes} (h : (postProcessSsd lib interp).run w = (.ok bytes, w')) :
    ∃ o, Reads lib interp w o := by
  obtain ⟨tensors, w₁, hread, hrest⟩ := run_bind_eq_ok h
  obtain ⟨hout, rfl⟩ := run_nativeRead_eq_ok hread
  split at hrest
  · cases hrest
  · obtain ⟨boxes, hboxes, h₁⟩ := readsAt_of_ok hrest
    obtain ⟨classIds, hclass, h₂⟩ := readsAt_of_ok h₁
    obtain ⟨scores, hscores, h₃⟩ := readsAt_of_ok h₂
    obtain ⟨count, hcount, -⟩ := readsAt_of_ok h₃
    exact ⟨⟨boxes, classIds, scores, count⟩, tensors, hout, hboxes, hclass, hscores, hcount⟩

/-- Every row of the reply that is not all zero has a score that reaches the minimum. -/
def RowsScored (bytes : Bytes) : Prop :=
  ∀ i < maxDetections, (∃ x ∈ tableRow (Binary32.listOfLeBytes bytes) i, x.isZero = false) →
    minScore.le ((tableRow (Binary32.listOfLeBytes bytes) i).getD 1 .zero) = true

/-- No NaN stands among the scores before the first one below the minimum. -/
def ScoresMeaningful (o : SsdOutputs) : Prop :=
  ∀ i < o.candidates, (∀ j < i, (o.score j).lt minScore = false) → (o.score i).isNaN = false

theorem isZero_of_not_lt {x : Binary32} (h : x.lt minScore = false) : x.isZero = false := by
  cases hx : x.isZero with
  | false => rfl
  | true =>
    -- a zero is below the minimum
    have hmag : x.magnitude = 0 := of_decide_eq_true hx
    have hrank : x.rank = 0 := by
      unfold Binary32.rank
      rw [hmag]
      split_ifs <;> rfl
    have hnan : x.isNaN = false := by
      unfold Binary32.isNaN
      rw [hmag]
      rfl
    have hlt : x.lt minScore = true := by
      unfold Binary32.lt
      rw [hnan, hrank]
      decide
    rw [h] at hlt
    cases hlt

theorem rowsScored_iff (o : SsdOutputs) :
    RowsScored (Binary32.listToLeBytes o.table) ↔ ScoresMeaningful o := by
  constructor
  · intro h i hi hbefore
    cases hnan : (o.score i).isNaN with
    | false => rfl
    | true =>
      -- the candidate is emitted, with a score that reaches nothing
      have hlt : (o.score i).lt minScore = false := by
        rw [Binary32.lt, hnan]
        rfl
      have hem : i < o.emitted := by
        refine lt_emitted.mpr ⟨hi, fun j hj => ?_⟩
        rcases Nat.lt_or_eq_of_le hj with hji | rfl
        · exact hbefore j hji
        · exact hlt
      have hrow := tableRow_decoded o (hi.trans_le o.candidates_le)
      rw [if_pos hem] at hrow
      have hle := h i (hi.trans_le o.candidates_le)
        ⟨o.score i, by rw [hrow]; simp [SsdOutputs.row], isZero_of_not_lt hlt⟩
      rw [hrow] at hle
      have hnot := Binary32.isNaN_of_le hle
      exact absurd (hnan.symm.trans hnot) (by decide)
  · intro h i hi hne
    rw [tableRow_decoded o hi] at hne ⊢
    split_ifs at hne ⊢ with hem
    · obtain ⟨hcand, hall⟩ := lt_emitted.mp hem
      rcases (Binary32.lt_eq_false_iff minScore_isNaN).mp (hall i le_rfl) with hnan | hle
      · rw [h i hcand fun j hj => hall j hj.le] at hnan
        cases hnan
      · exact hle
    · obtain ⟨x, hx, hzero⟩ := hne
      rw [List.eq_of_mem_replicate hx] at hzero
      cases hzero

/-- **When no detection without a meaningful score is sent**: exactly when no NaN stands among the
scores before the first one below the minimum. -/
theorem min_score_iff (lib : EdgefirstTflite W) (interp : Interpreter) (w : W) :
    (∀ bytes w', (postProcessSsd lib interp).run w = (.ok bytes, w') → RowsScored bytes) ↔
      ∀ o, Reads lib interp w o → ScoresMeaningful o := by
  constructor
  · intro h o ho
    exact (rowsScored_iff o).mp (h _ w (run_postProcessSsd ho))
  · intro h bytes w' hrun
    obtain ⟨o, ho⟩ := reads_of_ok hrun
    cases hrun.symm.trans (run_postProcessSsd ho)
    exact (rowsScored_iff o).mpr (h o ho)

/-- One candidate of class three, with a NaN for a score. -/
def nanScore : SsdOutputs where
  boxes := []
  classIds := [⟨0x40400000⟩]
  scores := [⟨0x7FC00000⟩]
  count := [⟨0x3F800000⟩]

/-- That candidate is sent. -/
theorem nanScore_sent :
    ¬ ∀ bytes w', (postProcessSsd (outputTflite nanScore) ⟨4⟩).run () = (.ok bytes, w') →
      RowsScored bytes := by
  intro h
  have hrun := run_postProcessSsd (reads_outputTflite nanScore ⟨4⟩)
  have hmeaningful := (rowsScored_iff nanScore).mp (h _ () hrun)
  exact absurd (hmeaningful 0 (by decide) (fun j hj => absurd hj (Nat.not_lt_zero j))) (by decide)

end FrigateZmqDetector.Tflite
