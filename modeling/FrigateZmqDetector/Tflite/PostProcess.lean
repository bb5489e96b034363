import FrigateZmqDetector.Tflite.Native

/-!
# Post-processing of SSD outputs

The four output tensors (boxes, class ids, scores, count) become a table of 20 rows of six floats,
sent as 480 little-endian bytes. All indexed writes are written out with the panic they would
raise, and `detectionLoop_ok` shows that none is raised: the table keeps its 120 floats.
-/

namespace FrigateZmqDetector.Tflite

open Lib Lib.Eff

variable {W : Type} {detections : List Binary32}

def maxDetections : ℕ := 20

/-- Minimum detection score threshold, `0.4`. -/
def minScore : Binary32 := ⟨0x3ECCCCCD⟩

/-- The row of detection `i`: class, score, and the four coordinates of its box. -/
def writeDetection (boxes classIds : List Binary32) (i : ℕ) (score : Binary32)
    (detections : List Binary32) : Fallible W (List Binary32) := do
  let bo := i * 4
  let yMin := boxes.getD bo .zero
  let xMin := boxes.getD (bo + 1) .zero
  let yMax := boxes.getD (bo + 2) .zero
  let xMax := boxes.getD (bo + 3) .zero
  let clsId := classIds.getD i .zero
  let oo := i * 6
  let detections ← setIndex detections oo clsId
  let detections ← setIndex detections (oo + 1) score
  let detections ← setIndex detections (oo + 2) yMin
  let detections ← setIndex detections (oo + 3) xMin
  let detections ← setIndex detections (oo + 4) yMax
  setIndex detections (oo + 5) xMax

/-- The loop over the detections from `i` on, of which `n` are left. -/
def detectionLoop (boxes classIds scores : List Binary32) :
    (n i : ℕ) → List Binary32 → Fallible W (List Binary32)
  | 0, _, detections => pure detections
  | n + 1, i, detections => do
    let score := scores.getD i .zero
    if score.lt minScore ∨ maxDetections ≤ i then pure detections
    else
      let detections ← writeDetection boxes classIds i score detections
      detectionLoop boxes classIds scores n (i + 1) detections

/-- The table with the row of detection `i` replaced. -/
def withRow (boxes classIds : List Binary32) (i : ℕ) (score : Binary32)
    (detections : List Binary32) : List Binary32 :=
  detections |>.set (i * 6) (classIds.getD i .zero) |>.set (i * 6 + 1) score
    |>.set (i * 6 + 2) (boxes.getD (i * 4) .zero) |>.set (i * 6 + 3) (boxes.getD (i * 4 + 1) .zero)
    |>.set (i * 6 + 4) (boxes.getD (i * 4 + 2) .zero)
    |>.set (i * 6 + 5) (boxes.getD (i * 4 + 3) .zero)

@[simp] theorem length_withRow (boxes classIds : List Binary32) (i : ℕ) (score : Binary32) :
    (withRow boxes classIds i score detections).length = detections.length := by
  simp only [withRow, List.length_set]

theorem run_writeDetection (boxes classIds : List Binary32) {i : ℕ} (hi : i < maxDetections)
    (hd : detections.length = maxDetections * 6) (score : Binary32) (w : W) :
    (writeDetection boxes classIds i score detections).run w =
      (.ok (withRow boxes classIds i score detections), w) := by
  have hset : ∀ (j : ℕ) (ds : List Binary32) (x : Binary32), ds.length = maxDetections * 6 →
      j < i * 6 + 6 → (setIndex ds j x : Fallible W _).run w = (.ok (ds.set j x), w) := by
    intro j ds x hlen hj
    refine run_setIndex_of_lt ?_ x
    unfold maxDetections at hi hlen
    omega
  have hkeep : ∀ (j : ℕ) (ds : List Binary32) (x : Binary32), ds.length = maxDetections * 6 →
      (ds.set j x).length = maxDetections * 6 := fun j ds x hlen => by rwa [List.length_set]
  have h₁ := hkeep (i * 6) _ (classIds.getD i .zero) hd
  have h₂ := hkeep (i * 6 + 1) _ score h₁
  have h₃ := hkeep (i * 6 + 2) _ (boxes.getD (i * 4) .zero) h₂
  have h₄ := hkeep (i * 6 + 3) _ (boxes.getD (i * 4 + 1) .zero) h₃
  have h₅ := hkeep (i * 6 + 4) _ (boxes.getD (i * 4 + 2) .zero) h₄
  unfold writeDetection
  dsimp only
  rw [run_bind_of_ok (hset _ _ _ hd (by omega)), run_bind_of_ok (hset _ _ _ h₁ (by omega)),
    run_bind_of_ok (hset _ _ _ h₂ (by omega)), run_bind_of_ok (hset _ _ _ h₃ (by omega)),
    run_bind_of_ok (hset _ _ _ h₄ (by omega))]
  exact hset _ _ _ h₅ (by omega)

/-- **No write of the loop is out of range.** -/
theorem detectionLoop_ok (boxes classIds scores : List Binary32) (n i : ℕ)
    (hd : detections.length = maxDetections * 6) (w : W) :
    ∃ ds, (detectionLoop boxes classIds scores n i detections).run w = (.ok ds, w) ∧
      ds.length = maxDetections * 6 := by
  induction n generalizing i detections with
  | zero => exact ⟨detections, rfl, hd⟩
  | succ n ih =>
    unfold detectionLoop
    by_cases hstop : (scores.getD i .zero).lt minScore ∨ maxDetections ≤ i
    · rw [if_pos hstop]
      exact ⟨detections, rfl, hd⟩
    · rw [if_neg hstop]
      have hi : i < maxDetections := Nat.lt_of_not_le fun h => hstop (Or.inr h)
      rw [run_bind_of_ok (run_writeDetection boxes classIds hi hd (scores.getD i .zero) w)]
      exact ih (i + 1) ((length_withRow ..).trans hd)

def detCount (count : List Binary32) : ℕ :=
  match count.head? with
  | some c => min c.toUsize maxDetections
  | none => 0

/-- The 480 bytes of the four output tensors. -/
def postProcessSsd (lib : EdgefirstTflite W) (interp : Interpreter) : Fallible W Bytes := do
  let outputs ← nativeRead (lib.outputs interp) fun e => s!"outputs() failed: {e}"
  if outputs.length < 4 then
    throw (.tflite s!"Expected 4 SSD output tensors, got {outputs.length}")
  else
    let boxes ← nativeRead (lib.asSliceF32 (← index outputs 0)) fun e =>
      s!"boxes tensor read failed: {e}"
    let classIds ← nativeRead (lib.asSliceF32 (← index outputs 1)) fun e =>
      s!"class_ids tensor read failed: {e}"
    let scores ← nativeRead (lib.asSliceF32 (← index outputs 2)) fun e =>
      s!"scores tensor read failed: {e}"
    let count ← nativeRead (lib.asSliceF32 (← index outputs 3)) fun e =>
      s!"count tensor read failed: {e}"
    let detections ← detectionLoop boxes classIds scores (detCount count) 0
      (List.replicate (maxDetections * 6) .zero)
    return Binary32.listToLeBytes detections

/-- **What post-processing returns is 480 bytes long**, whatever the tensors hold. -/
theorem postProcessSsd_ensures (lib : EdgefirstTflite W) (interp : Interpreter) :
    Ensures (postProcessSsd lib interp) fun bytes => bytes.length = 480 := by
  refine (ensures_native _ _).bind fun outputs _ => ?_
  split
  · exact ensures_throw _
  · rename_i hlen
    refine (ensures_index (by omega)).bind fun _ _ => (ensures_native _ _).bind fun boxes _ => ?_
    refine (ensures_index (by omega)).bind fun _ _ => (ensures_native _ _).bind fun classIds _ => ?_
    refine (ensures_index (by omega)).bind fun _ _ => (ensures_native _ _).bind fun scores _ => ?_
    refine (ensures_index (by omega)).bind fun _ _ => (ensures_native _ _).bind fun count _ => ?_
    intro w
    obtain ⟨ds, hds, hdlen⟩ := detectionLoop_ok boxes classIds scores (detCount count) 0
      (List.length_replicate ..) w
    rw [run_bind_of_ok hds]
    show (Binary32.listToLeBytes ds).length = 480
    rw [Binary32.length_listToLeBytes, hdlen]
    rfl

end FrigateZmqDetector.Tflite
