import GuardedQuery.AdaptiveSort
import GuardedQuery.Instant
import GuardedQuery.Json.Value
import GuardedQuery.Query.Vocabulary
import GuardedQuery.Schema.FieldType

/-!
# The order of rows

Rows are put in order by a list of keys. A key compares the values of one column; values of different
kinds are ordered by kind, and a missing value counts as `null`.

## Main definitions

* `Value.compare`, `Value.compareTemporal`: the order of a column's values; in columns of instants, texts
  are compared as instants.
* `SortKey.compare`, `SortKey.compareRecords`: the order by one key and by a list of keys.
* `SortKey.sort?`, `SortKey.sort`: the stable sort by a list of keys, which may give up.
* `Value.isMatch`: equality for joins, under which `null` equals nothing.
-/

namespace GuardedQuery

namespace Value

/-- The place of a value's kind: nulls first, then truth values, numbers, texts, arrays and objects. -/
def kindRank : Value → Nat
  | null => 0
  | bool _ => 1
  | int _ => 2
  | float _ => 2
  | string _ => 3
  | array _ => 4
  | object _ => 5

/-- The order of two numbers: exact if both are signed 64-bit integers, rounded otherwise. -/
def compareNumbers (a b : Value) : Ordering :=
  match a.asInt64?, b.asInt64? with
  | some m, some n => Ord.compare m n
  | _, _ => (a.asBinary64?.getD default).compare (b.asBinary64?.getD default)

/-- The order of two values. Arrays are not told apart, and neither are objects. -/
def compare (a b : Value) : Ordering :=
  if a.kindRank = b.kindRank then
    match a, b with
    | bool x, bool y => Ord.compare x y
    | string s, string t => Ord.compare s t
    | a, b => if a.kindRank = 2 then compareNumbers a b else .eq
  else Ord.compare a.kindRank b.kindRank

/-- The order of two texts in a column of instants: instants by time, before all other texts. -/
def compareInstantTexts (s t : String) : Ordering :=
  match Instant.parse? s, Instant.parse? t with
  | some i, some j => i.compare j
  | some _, none => .lt
  | none, some _ => .gt
  | none, none => Ord.compare s t

/-- The order of two values in a column of instants. -/
def compareTemporal : Value → Value → Ordering
  | string s, string t => compareInstantTexts s t
  | a, b => compare a b

/-- Whether two values are equal in the sense of a join. -/
def isMatch (a b : Value) : Bool := !a.isNull && !b.isNull && a.compare b == .eq

end Value

/-- The value of a field; a missing one is `null`. -/
def Record.value (record : Record) (field : String) : Value := (Dict.get? record field).getD .null

/-- A key by which rows are ordered. -/
structure SortKey where
  /-- The column. -/
  field : String
  /-- The direction. -/
  direction : Direction := .asc
  /-- Whether the column holds instants. -/
  temporal : Bool := false
deriving DecidableEq, Repr

namespace SortKey

/-- The key with the reading of texts that a column's declared type asks for. -/
def typed (k : SortKey) (t : Option FieldType) : SortKey :=
  { k with temporal := t.any fun t => t.isA .datetime }

/-- The key in the opposite direction. -/
def reversed (k : SortKey) : SortKey := { k with direction := k.direction.flip }

/-- Turns an ascending order into the key's direction. -/
def orient (k : SortKey) (o : Ordering) : Ordering :=
  match k.direction with
  | .asc => o
  | .desc => o.swap

/-- The order of two values of the key's column. -/
def compare (k : SortKey) (a b : Value) : Ordering :=
  k.orient (if k.temporal then a.compareTemporal b else a.compare b)

/-- The order of two rows by a list of keys: the first key that tells them apart decides. -/
def compareRecords : List SortKey → Record → Record → Ordering
  | [], _, _ => .eq
  | k :: rest, a, b => (k.compare (Record.value a k.field) (Record.value b k.field)).then (compareRecords rest a b)

/-- Sorts rows by the records they carry. Rows that no key tells apart keep their order. Mixed numbers can stand in a
circle, and then the comparison contradicts itself: the sort of many such rows may give up, and what it comes to
otherwise need not be in order. -/
def sortBy? {α : Type} (keys : List SortKey) (record : α → Record) (rows : List α) : Option (List α) :=
  AdaptiveSort.sort (fun a b => compareRecords keys (record a) (record b) == .lt) rows

/-- The rows in the order of the keys, or as they are if their sort gives up. -/
def sortBy {α : Type} (keys : List SortKey) (record : α → Record) (rows : List α) : List α :=
  (sortBy? keys record rows).getD rows

/-- The sorted rows, unless their sort gives up. -/
def sort? (keys : List SortKey) (rows : List Record) : Option (List Record) := sortBy? keys id rows

/-- The rows in the order of the keys. -/
def sort (keys : List SortKey) (rows : List Record) : List Record := sortBy keys id rows

end SortKey

end GuardedQuery
