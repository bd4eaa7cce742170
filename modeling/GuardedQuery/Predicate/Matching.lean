import GuardedQuery.Predicate.Basic
import GuardedQuery.Text.LowerCase

/-!
# Matching records

Which records pass a predicate. A stored value is read in the type of the operand it is compared with; a
value that cannot be read so passes no comparison.
-/

namespace GuardedQuery

namespace Text

/-- Whether a list of characters holds another one without a gap. -/
def holdsInfix (part : List Char) : List Char → Bool
  | [] => part.isEmpty
  | c :: rest => part.isPrefixOf (c :: rest) || holdsInfix part rest

end Text

/-- Whether a stored text passes a test. -/
def TextOp.holds (op : TextOp) (actual operand : String) : Bool :=
  match op with
  | contains => Text.holdsInfix operand.toList actual.toList
  | startsWith => operand.toList.isPrefixOf actual.toList
  | endsWith => operand.toList.isSuffixOf actual.toList
  | equalsIgnoreCase => Text.lower actual == Text.lower operand

namespace Predicate

/-- The value of a field, if there is one that is not `null`. -/
def actual? (record : Record) (field : String) : Option Value :=
  (Dict.get? record field).filter fun v => !v.isNull

/-- Whether a stored value compares with an operand. -/
def comparesWith (op : CompareOp) (operand : Scalar) (v : Value) : Bool :=
  match operand.readLike? v with
  | some s => (s.compare? operand).any op.holds
  | none => false

mutual

/-- Whether a record passes a predicate. A missing value differs from every operand and passes no other
comparison; a missing collection has no element that could fail. -/
def holds : Predicate → Record → Bool
  | always, _ => true
  | compare field op operand, record =>
    match actual? record field with
    | some v => comparesWith op operand v
    | none => op == .ne
  | text field op operand, record =>
    match Dict.get? record field with
    | some (.string s) => op.holds s operand
    | _ => false
  | oneOf field operands, record =>
    match actual? record field with
    | some v => operands.any fun operand => comparesWith .eq operand v
    | none => false
  | null field negated, record => (actual? record field).isNone != negated
  | and parts, record => allHold parts record
  | or parts, record => someHolds parts record
  | any collection element, record =>
    match Dict.get? record collection with
    | some (.array items) => items.any fun item =>
      match item with
      | .object ms => holds element ms
      | _ => false
    | _ => false
  | all collection element, record =>
    match Dict.get? record collection with
    | some (.array items) => items.all fun item =>
      match item with
      | .object ms => holds element ms
      | _ => false
    | none => true
    | some .null => true
    | some _ => false

/-- Whether a record passes all predicates of a list. -/
def allHold : List Predicate → Record → Bool
  | [], _ => true
  | p :: rest, record => holds p record && allHold rest record

/-- Whether a record passes some predicate of a list. -/
def someHolds : List Predicate → Record → Bool
  | [], _ => false
  | p :: rest, record => holds p record || someHolds rest record

end

end Predicate

end GuardedQuery
