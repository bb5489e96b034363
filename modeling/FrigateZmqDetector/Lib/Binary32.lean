import Mathlib.Data.BitVec
import Mathlib.Data.Nat.Notation

/-!
# Single-precision floats as bit patterns

A `Binary32` is the 32-bit pattern of an IEEE 754 single: sign, 8 exponent bits, 23 fraction bits.
Every pattern is allowed, so NaNs and infinities are values like any other. Comparison goes by the
magnitude bits, which are ordered as the numbers they stand for; a NaN compares with nothing.
-/

namespace FrigateZmqDetector.Lib

structure Binary32 where
  bits : BitVec 32
  deriving DecidableEq, Repr

namespace Binary32

/-! ### Fields and order -/

def zero : Binary32 := ⟨0⟩

def sign (x : Binary32) : Bool := x.bits.msb

/-- All bits but the sign. -/
def magnitude (x : Binary32) : ℕ := x.bits.toNat % 2 ^ 31

def exponent (x : Binary32) : ℕ := x.magnitude / 2 ^ 23

/-- The fraction bits, with the leading one of a normal number. -/
def significand (x : Binary32) : ℕ :=
  if x.exponent = 0 then x.magnitude else 2 ^ 23 + x.magnitude % 2 ^ 23

/-- The magnitude bits of an infinity; a NaN has larger ones. -/
def infinityBits : ℕ := 0x7F800000

def isNaN (x : Binary32) : Bool := infinityBits < x.magnitude

/-- A zero of either sign. -/
def isZero (x : Binary32) : Bool := x.magnitude = 0

/-- Where a number stands in the order; the two zeros stand at the same place. -/
def rank (x : Binary32) : Int := if x.sign then -x.magnitude else x.magnitude

/-- `x < y` as IEEE 754 compares: false when either is a NaN. -/
def lt (x y : Binary32) : Bool := !x.isNaN && !y.isNaN && decide (x.rank < y.rank)

/-- `x ≤ y` is not the negation of `y < x`: both are false when either is a NaN. -/
def le (x y : Binary32) : Bool := !x.isNaN && !y.isNaN && decide (x.rank ≤ y.rank)

variable {x y z : Binary32}

theorem le_trans (hxy : x.le y = true) (hyz : y.le z = true) : x.le z = true := by
  simp only [le, Bool.and_eq_true, Bool.not_eq_true', decide_eq_true_eq] at *
  exact ⟨⟨hxy.1.1, hyz.1.2⟩, Int.le_trans hxy.2 hyz.2⟩

theorem isNaN_of_le (h : x.le y = true) : y.isNaN = false := by
  simp only [le, Bool.and_eq_true, Bool.not_eq_true'] at h
  exact h.1.2

/-- **What a failed comparison tells**: the order is the other way round, unless there is a NaN. -/
theorem lt_eq_false_iff (hy : y.isNaN = false) :
    x.lt y = false ↔ x.isNaN = true ∨ y.le x = true := by
  unfold lt le
  rw [hy]
  cases x.isNaN <;> simp

/-! ### Conversions -/

/-- The largest `usize` of a 64-bit machine. -/
def usizeMax : ℕ := 2 ^ 64 - 1

/-- The saturating cast to an unsigned 64-bit integer: towards zero, NaN and negative numbers to
`0`, what is too large to the largest integer. -/
def toUsize (x : Binary32) : ℕ :=
  if x.isNaN ∨ x.sign then 0
  else if x.exponent < 150 then min (x.significand / 2 ^ (150 - max x.exponent 1)) usizeMax
  else min (x.significand * 2 ^ (x.exponent - 150)) usizeMax

example : [0x3F800000, 0x41A40000, 0x7FC00000, 0xBF800000, 0x7F800000].map
    (fun b => toUsize ⟨b⟩) = [1, 20, 0, 0, usizeMax] := by decide

/-- The four bytes, least significant first. -/
def toLeBytes (x : Binary32) : List UInt8 :=
  (List.range 4).map fun k => UInt8.ofNat (x.bits.toNat / 256 ^ k % 256)

@[simp] theorem length_toLeBytes (x : Binary32) : x.toLeBytes.length = 4 := by
  simp [toLeBytes]

def listToLeBytes (xs : List Binary32) : List UInt8 := xs.flatMap toLeBytes

@[simp] theorem length_listToLeBytes (xs : List Binary32) :
    (listToLeBytes xs).length = 4 * xs.length := by
  induction xs with
  | nil => rfl
  | cons x xs ih =>
    rw [listToLeBytes, List.flatMap_cons, List.length_append, length_toLeBytes,
      ← listToLeBytes, ih, List.length_cons]
    omega

/-- The float with these bytes, least significant first. -/
def ofLeBytes (bs : List UInt8) : Binary32 :=
  ⟨BitVec.ofNat 32 (bs.foldr (fun b n => b.toNat + 256 * n) 0)⟩

/-- The floats of a buffer, four bytes each. -/
def listOfLeBytes : List UInt8 → List Binary32
  | b₀ :: b₁ :: b₂ :: b₃ :: bs => ofLeBytes [b₀, b₁, b₂, b₃] :: listOfLeBytes bs
  | _ => []

@[simp] theorem ofLeBytes_toLeBytes (x : Binary32) : ofLeBytes x.toLeBytes = x := by
  obtain ⟨bits⟩ := x
  have hlt : bits.toNat < 4294967296 := bits.isLt
  have hvalue : (toLeBytes ⟨bits⟩).foldr (fun b n => b.toNat + 256 * n) 0 = bits.toNat := by
    simp only [toLeBytes, List.range_succ, List.range_zero, List.nil_append, List.cons_append,
      List.map_cons, List.map_nil, List.foldr_cons, List.foldr_nil, UInt8.toNat_ofNat']
    omega
  rw [ofLeBytes, hvalue, BitVec.ofNat_toNat, BitVec.setWidth_eq]

/-- **A buffer of floats reads back as the floats that were written.** -/
@[simp] theorem listOfLeBytes_listToLeBytes (xs : List Binary32) :
    listOfLeBytes (listToLeBytes xs) = xs := by
  induction xs with
  | nil => rfl
  | cons x xs ih =>
    have hhead : x.toLeBytes ++ listToLeBytes xs = listToLeBytes (x :: xs) := rfl
    have hx := ofLeBytes_toLeBytes x
    rw [← hhead]
    show ofLeBytes x.toLeBytes :: listOfLeBytes (listToLeBytes xs) = x :: xs
    rw [hx, ih]

end Binary32

end FrigateZmqDetector.Lib
