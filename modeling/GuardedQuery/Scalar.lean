import GuardedQuery.Schema.FieldType

/-!
# Scalars

A scalar is an operand read in a declared type. Stored values are read in the type of the operand they
are compared with, and only scalars of one type compare.
-/

namespace GuardedQuery

/-- An operand. -/
inductive Scalar where
  /-- A truth value. -/
  | bool (b : Bool)
  /-- An integer. -/
  | int (n : Int)
  /-- A number. -/
  | float (x : Binary64)
  /-- A text. -/
  | text (s : String)
  /-- An instant. -/
  | instant (i : Instant)
  /-- A UUID. -/
  | uuid (u : Uuid)
deriving DecidableEq, Repr

namespace Scalar

/-- The scalar that a value stands for under a type, if it does. -/
def ofValue? : ScalarType → Value → Option Scalar
  | .string, .string s => some (text s)
  | .int, v => v.asInt64?.map int
  | .float, v => v.asBinary64?.map float
  | .bool, .bool b => some (bool b)
  | .datetime, .string s => (Instant.parse? s).map instant
  | .uuid, .string s => (Uuid.parse? s).map uuid
  | _, _ => none

/-- The scalar that a value stands for under a field type; only scalar types have any. -/
def coerce? (v : Value) : FieldType → Option Scalar
  | .scalar t => ofValue? t v
  | _ => none

/-- The type of a scalar. -/
def type : Scalar → ScalarType
  | bool _ => .bool
  | int _ => .int
  | float _ => .float
  | text _ => .string
  | instant _ => .datetime
  | uuid _ => .uuid

/-- Reads a value in the type of this scalar. -/
def readLike? (s : Scalar) (v : Value) : Option Scalar := ofValue? s.type v

/-- The order of two scalars of one type. -/
def compare? : Scalar → Scalar → Option Ordering
  | bool a, bool b => some (Ord.compare a b)
  | int a, int b => some (Ord.compare a b)
  | float a, float b => some (a.compare b)
  | text a, text b => some (Ord.compare a b)
  | instant a, instant b => some (a.compare b)
  | uuid a, uuid b => some (Ord.compare a.value b.value)
  | _, _ => none

end Scalar

end GuardedQuery
