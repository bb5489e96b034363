import FrigateZmqDetector.Backend
import Mathlib.Data.List.Basic

/-!
# JSON values

`Value` is `serde_json::Value`: an object is a map sorted by key, here a sorted list of members.
Parsing is the library's own, and `SerdeJson` stands for it. Nothing here parses what the sidecar
prints, so a printed value is kept as the value.
-/

namespace FrigateZmqDetector

inductive Number where
  | posInt (n : ℕ)
  | negInt (i : Int)
  | float (bits : BitVec 64)
  deriving DecidableEq, Repr

inductive Value where
  | null
  | bool (b : Bool)
  | number (n : Number)
  | string (s : String)
  | array (items : List Value)
  | object (members : List (String × Value))
  deriving Repr

/-- The part of the JSON library that the sidecar calls. -/
structure SerdeJson where
  /-- The value a text stands for, or the debug text of a parse error. -/
  fromSlice : Bytes → Except String Value

/-- A parser that knows the texts of a table. -/
def SerdeJson.ofTable (table : List (Bytes × Value)) : SerdeJson where
  fromSlice text := ((table.find? fun entry => entry.1 == text).map Prod.snd).elim
    (.error "expected value") .ok

/-- The bytes of an ASCII text. -/
def ascii (text : String) : Bytes := text.toList.map fun c => UInt8.ofNat c.toNat

/-- A member put into a map; the value of a key that is there already is replaced. -/
def insertMember (key : String) (value : Value) : List (String × Value) → List (String × Value)
  | [] => [(key, value)]
  | (k, v) :: rest =>
    if key < k then (key, value) :: (k, v) :: rest
    else if key = k then (key, value) :: rest
    else (k, v) :: insertMember key value rest

/-- The value of a key in a map. -/
def findMember (key : String) : List (String × Value) → Option Value
  | [] => none
  | (k, v) :: rest => if key = k then some v else findMember key rest

theorem findMember_eq_none {key : String} :
    ∀ {ms : List (String × Value)}, key ∉ ms.map Prod.fst → findMember key ms = none
  | [], _ => rfl
  | (k, v) :: rest, h => by
    rw [List.map_cons, List.mem_cons, not_or] at h
    rw [findMember, if_neg h.1]
    exact findMember_eq_none h.2

theorem findMember_insertMember_self (key : String) (value : Value) :
    ∀ ms, findMember key (insertMember key value ms) = some value
  | [] => if_pos rfl
  | (k, v) :: rest => by
    unfold insertMember
    split_ifs with hlt heq
    · exact if_pos rfl
    · exact if_pos rfl
    · rw [findMember, if_neg heq]
      exact findMember_insertMember_self key value rest

theorem findMember_insertMember_of_ne {key key' : String} (h : key' ≠ key) (value : Value) :
    ∀ ms, findMember key' (insertMember key value ms) = findMember key' ms
  | [] => if_neg h
  | (k, v) :: rest => by
    unfold insertMember
    split_ifs with hlt heq
    · rw [findMember, if_neg h]
    · rw [findMember, if_neg h, findMember, if_neg (heq ▸ h)]
    · rw [findMember, findMember, findMember_insertMember_of_ne h value rest]

namespace Value

/-- The member of an object with this key. -/
def get (key : String) : Value → Option Value
  | .object ms => findMember key ms
  | _ => none

def asStr : Value → Option String
  | .string s => some s
  | _ => none

def isObject : Value → Bool
  | .object _ => true
  | _ => false

/-- The object with these members, inserted in order. -/
def ofMembers (ms : List (String × Value)) : Value :=
  .object (ms.foldl (fun acc m => insertMember m.1 m.2 acc) [])

def set (v : Value) (key : String) (value : Value) : Value :=
  match v with
  | .object ms => .object (insertMember key value ms)
  | v => v

theorem get_ofMembers {ms : List (String × Value)} (h : (ms.map Prod.fst).Nodup) (key : String) :
    (ofMembers ms).get key = findMember key ms := by
  have hfold : ∀ (ms acc : List (String × Value)), (ms.map Prod.fst).Nodup →
      findMember key (ms.foldl (fun acc m => insertMember m.1 m.2 acc) acc) =
        (findMember key ms).or (findMember key acc) := by
    intro ms
    induction ms with
    | nil => exact fun _ _ => rfl
    | cons m ms ih =>
      intro acc hnd
      rw [List.map_cons, List.nodup_cons] at hnd
      rw [List.foldl_cons, ih _ hnd.2, findMember]
      by_cases hk : key = m.1
      · have hnone : findMember key ms = none := findMember_eq_none (hk ▸ hnd.1)
        rw [hnone, if_pos hk, hk, findMember_insertMember_self]
        rfl
      · rw [if_neg hk, findMember_insertMember_of_ne hk]
  exact (hfold ms [] h).trans (Option.or_none ..)

@[simp] theorem isObject_set (v : Value) (key : String) (value : Value) :
    (v.set key value).isObject = v.isObject := by
  cases v <;> rfl

theorem get_set_self {v : Value} (h : v.isObject = true) (key : String) (value : Value) :
    (v.set key value).get key = some value := by
  cases v with
  | object ms => exact findMember_insertMember_self key value ms
  | _ => cases h

theorem get_set_of_ne {key key' : String} (h : key' ≠ key) (v value : Value) :
    (v.set key value).get key' = v.get key' := by
  cases v with
  | object ms => exact findMember_insertMember_of_ne h value ms
  | _ => rfl

end Value

end FrigateZmqDetector
