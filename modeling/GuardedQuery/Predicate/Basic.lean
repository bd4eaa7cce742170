import GuardedQuery.Query.Vocabulary
import GuardedQuery.Scalar

/-!
# Predicates

A predicate is a filter whose operators are resolved and whose operands are read in the declared types of
their fields. It is what a store is handed, so that it never has to guess what an operand means.

## Main definitions

* `Predicate`: the predicates.
* `Predicate.conjunction`: the conjunction of predicates, without the trivial ones.
-/

namespace GuardedQuery

/-- The comparisons of a stored value with an operand. -/
inductive CompareOp where
  /-- Equal. -/
  | eq
  /-- Not equal. -/
  | ne
  /-- Less. -/
  | lt
  /-- Less or equal. -/
  | lte
  /-- Greater. -/
  | gt
  /-- Greater or equal. -/
  | gte
deriving DecidableEq, Repr

namespace CompareOp

/-- The operator that spells a comparison. -/
def operator : CompareOp → FilterOperator
  | eq => .eq
  | ne => .ne
  | lt => .lt
  | lte => .lte
  | gt => .gt
  | gte => .gte

/-- The comparison that an operator spells. -/
def ofOperator? : FilterOperator → Option CompareOp
  | .eq => some eq
  | .ne => some ne
  | .lt => some lt
  | .lte => some lte
  | .gt => some gt
  | .gte => some gte
  | _ => none

/-- Whether a comparison holds of a value that stands in the given order to the operand. -/
def holds : CompareOp → Ordering → Bool
  | eq, o => o == .eq
  | ne, o => o != .eq
  | lt, o => o == .lt
  | lte, o => o != .gt
  | gt, o => o == .gt
  | gte, o => o != .lt

end CompareOp

/-- The tests of a stored text. -/
inductive TextOp where
  /-- The text contains the operand. -/
  | contains
  /-- The text starts with the operand. -/
  | startsWith
  /-- The text ends with the operand. -/
  | endsWith
  /-- Equal up to case. -/
  | equalsIgnoreCase
deriving DecidableEq, Repr

namespace TextOp

/-- The operator that spells a test. -/
def operator : TextOp → FilterOperator
  | contains => .contains
  | startsWith => .startsWith
  | endsWith => .endsWith
  | equalsIgnoreCase => .equalsIgnoreCase

/-- The test that an operator spells. -/
def ofOperator? : FilterOperator → Option TextOp
  | .contains => some contains
  | .startsWith => some startsWith
  | .endsWith => some endsWith
  | .equalsIgnoreCase => some equalsIgnoreCase
  | _ => none

end TextOp

/-- A test of a record. -/
inductive Predicate where
  /-- Holds of every record. -/
  | always
  /-- The field's value compares with the operand. -/
  | compare (field : String) (op : CompareOp) (operand : Scalar)
  /-- The field's text passes a test. -/
  | text (field : String) (op : TextOp) (operand : String)
  /-- The field's value equals one of the operands. -/
  | oneOf (field : String) (operands : List Scalar)
  /-- The field has no value, or has one if the test is negated. -/
  | null (field : String) (negated : Bool)
  /-- All parts hold. -/
  | and (parts : List Predicate)
  /-- Some part holds. -/
  | or (parts : List Predicate)
  /-- Some element of a collection passes a test. -/
  | any (collection : String) (element : Predicate)
  /-- Every element of a collection passes a test. -/
  | all (collection : String) (element : Predicate)
deriving Inhabited, Repr

namespace Predicate

/-- Whether a predicate is the one that holds of every record. -/
def isAlways : Predicate → Bool
  | always => true
  | _ => false

/-- The conjunction of predicates. Trivial parts are left out, and a single part stands for itself. -/
def conjunction (parts : List Predicate) : Predicate :=
  match parts.filter fun p => !p.isAlways with
  | [] => always
  | [p] => p
  | ps => and ps

end Predicate

end GuardedQuery
