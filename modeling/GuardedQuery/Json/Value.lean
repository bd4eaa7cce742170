import GuardedQuery.Binary64.Basic
import GuardedQuery.Dict

/-!
# JSON values

Values keep integers apart from other numbers, and keep the members of an object in increasing order of
their names. Both are visible in answers: `1` and `1.0` are different values, and objects are always
written with sorted members.

## Main definitions

* `Value`: the values, and `Value.WellFormed`, which bounds the integers and sorts the members.
* `Record`: the members of an object, the form in which stored data is handled.
* `Value.asInt64?`, `Value.asUInt64?`, `Value.asBinary64?`: numeric readings of a value.
-/

namespace GuardedQuery

/-- A JSON value. -/
inductive Value where
  /-- The value `null`. -/
  | null
  /-- A truth value. -/
  | bool (b : Bool)
  /-- A number written without fraction and exponent, within 64 bits. -/
  | int (n : Int)
  /-- Any other number. -/
  | float (x : Binary64)
  /-- A text. -/
  | string (s : String)
  /-- A list of values. -/
  | array (items : List Value)
  /-- Values by name, in increasing order of the names. -/
  | object (members : List (String × Value))
deriving Inhabited

/-- The members of an object. -/
abbrev Record := Dict Value

/-- The least signed 64-bit integer. -/
def int64Min : Int := -0x8000000000000000

/-- The greatest signed 64-bit integer. -/
def int64Max : Int := 0x7FFFFFFFFFFFFFFF

/-- The greatest unsigned 64-bit integer. -/
def uint64Max : Int := 0xFFFFFFFFFFFFFFFF

namespace Value

/-! ## Equality -/

mutual

/-- Decides equality of values by recursion on both. -/
def decEq : (a b : Value) → Decidable (a = b)
  | null, null => isTrue rfl
  | bool a, bool b => if h : a = b then isTrue (by rw [h]) else isFalse (by simpa using h)
  | int a, int b => if h : a = b then isTrue (by rw [h]) else isFalse (by simpa using h)
  | float a, float b => if h : a = b then isTrue (by rw [h]) else isFalse (by simpa using h)
  | string a, string b => if h : a = b then isTrue (by rw [h]) else isFalse (by simpa using h)
  | array a, array b =>
    match decEqItems a b with
    | isTrue h => isTrue (by rw [h])
    | isFalse h => isFalse (by simpa using h)
  | object a, object b =>
    match decEqMembers a b with
    | isTrue h => isTrue (by rw [h])
    | isFalse h => isFalse (by simpa using h)
  | null, bool _ | null, int _ | null, float _ | null, string _ | null, array _ | null, object _
  | bool _, null | bool _, int _ | bool _, float _ | bool _, string _ | bool _, array _ | bool _, object _
  | int _, null | int _, bool _ | int _, float _ | int _, string _ | int _, array _ | int _, object _
  | float _, null | float _, bool _ | float _, int _ | float _, string _ | float _, array _
  | float _, object _
  | string _, null | string _, bool _ | string _, int _ | string _, float _ | string _, array _
  | string _, object _
  | array _, null | array _, bool _ | array _, int _ | array _, float _ | array _, string _
  | array _, object _
  | object _, null | object _, bool _ | object _, int _ | object _, float _ | object _, string _
  | object _, array _ => isFalse (by simp)

/-- Decides equality of lists of values. -/
def decEqItems : (a b : List Value) → Decidable (a = b)
  | [], [] => isTrue rfl
  | [], _ :: _ => isFalse (by simp)
  | _ :: _, [] => isFalse (by simp)
  | x :: xs, y :: ys =>
    match decEq x y, decEqItems xs ys with
    | isTrue h, isTrue hs => isTrue (by rw [h, hs])
    | isFalse h, _ => isFalse (by simp [h])
    | _, isFalse hs => isFalse (by simp [hs])

/-- Decides equality of lists of members. -/
def decEqMembers : (a b : List (String × Value)) → Decidable (a = b)
  | [], [] => isTrue rfl
  | [], _ :: _ => isFalse (by simp)
  | _ :: _, [] => isFalse (by simp)
  | (k, x) :: xs, (l, y) :: ys =>
    match decEq x y, decEqMembers xs ys with
    | isTrue h, isTrue hs =>
      if hk : k = l then isTrue (by rw [h, hs, hk]) else isFalse (by simp [hk])
    | isFalse h, _ => isFalse (by simp [h])
    | _, isFalse hs => isFalse (by simp [hs])

end

instance : DecidableEq Value := decEq

/-! ## Readings of a value -/

/-- Whether the value is `null`. -/
def isNull : Value → Bool
  | null => true
  | _ => false

/-- The value as a signed 64-bit integer. -/
def asInt64? : Value → Option Int
  | int n => if n ≤ int64Max then some n else none
  | _ => none

/-- The value as an unsigned 64-bit integer. -/
def asUInt64? : Value → Option Nat
  | int n => if 0 ≤ n then some n.toNat else none
  | _ => none

/-- The number nearest to a numeric value. -/
def asBinary64? : Value → Option Binary64
  | int n => some (Binary64.ofInt n)
  | float x => some x
  | _ => none

/-- The text of a text value. -/
def asString? : Value → Option String
  | string s => some s
  | _ => none

/-- The items of an array. -/
def asArray? : Value → Option (List Value)
  | array items => some items
  | _ => none

/-- The members of an object; a value of another kind has none. -/
def members : Value → Record
  | object ms => ms
  | _ => []

/-- A number, or `null` in place of one that overflowed. -/
def ofBinary64? : Option Binary64 → Value
  | some x => float x
  | none => null

/-- A natural number. -/
def ofNat (n : Nat) : Value := int n

/-- A value that may be absent, written as `null`. -/
def ofOption (v : Option Value) : Value := v.getD null

/-- An array of texts. -/
def ofStrings (l : List String) : Value := array (l.map string)

/-- An object from members in any order. -/
def ofMembers (l : List (String × Value)) : Value := object (Dict.ofList l)

/-! ## Well-formed values -/

mutual

/-- Integers fit 64 bits, and the members of every object are sorted. Reading only makes such values. -/
def WellFormed : Value → Prop
  | int n => int64Min ≤ n ∧ n ≤ uint64Max
  | array items => WellFormedItems items
  | object ms => Dict.Sorted ms ∧ WellFormedMembers ms
  | _ => True

/-- Every item is well formed. -/
def WellFormedItems : List Value → Prop
  | [] => True
  | v :: rest => WellFormed v ∧ WellFormedItems rest

/-- Every member's value is well formed. -/
def WellFormedMembers : List (String × Value) → Prop
  | [] => True
  | (_, v) :: rest => WellFormed v ∧ WellFormedMembers rest

end

mutual

/-- The number of arrays and objects on the longest path into the value. -/
def depth : Value → Nat
  | array items => 1 + depthItems items
  | object ms => 1 + depthMembers ms
  | _ => 0

/-- The greatest depth of an item. -/
def depthItems : List Value → Nat
  | [] => 0
  | v :: rest => max (depth v) (depthItems rest)

/-- The greatest depth of a member's value. -/
def depthMembers : List (String × Value) → Nat
  | [] => 0
  | (_, v) :: rest => max (depth v) (depthMembers rest)

end

end Value

end GuardedQuery
