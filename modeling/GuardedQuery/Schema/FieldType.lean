import GuardedQuery.Instant
import GuardedQuery.Json.Decode
import GuardedQuery.Uuid

/-!
# Field types

The types that entity fields are declared with, and which values conform to them. Every field may be
`null`. Operands and identities are scalars; objects and arrays only nest.

## Main definitions

* `ScalarType`, `FieldType`: the types.
* `FieldType.conforms`: whether a value may be stored under a type, at any depth.
* `FieldType.decoder`, `FieldType.toValue`: the written form, an object tagged with the kind.
-/

namespace GuardedQuery

/-- The types whose values can be compared. -/
inductive ScalarType where
  /-- Texts. -/
  | string
  /-- Signed 64-bit integers. -/
  | int
  /-- Numbers. -/
  | float
  /-- Truth values. -/
  | bool
  /-- Instants, written as texts. -/
  | datetime
  /-- UUIDs, written as texts. -/
  | uuid
deriving DecidableEq, Repr

namespace ScalarType

/-- All scalar types, in the order of their kind numbers. -/
def all : List ScalarType := [string, int, float, bool, datetime, uuid]

/-- The name in documents and messages. -/
def name : ScalarType → String
  | string => "string"
  | int => "int"
  | float => "float"
  | bool => "bool"
  | datetime => "datetime"
  | uuid => "uuid"

/-- Whether a value that is not `null` has the type. -/
def conforms : ScalarType → Value → Bool
  | string, .string _ => true
  | int, v => v.asInt64?.isSome
  | float, v => v.asBinary64?.isSome
  | bool, .bool _ => true
  | datetime, .string s => (Instant.parse? s).isSome
  | uuid, .string s => (Uuid.parse? s).isSome
  | _, _ => false

end ScalarType

/-- The type of a field. -/
inductive FieldType where
  /-- A scalar. -/
  | scalar (t : ScalarType)
  /-- An object with declared members. -/
  | object (fields : List (String × FieldType))
  /-- A list of elements of one type. -/
  | array (element : FieldType)
deriving Inhabited

namespace FieldType

/-- The name of the type's kind. -/
def name : FieldType → String
  | scalar t => t.name
  | object _ => "object"
  | array _ => "array"

/-- Whether values of the type can be compared and can serve as an identity. -/
def isScalar : FieldType → Bool
  | scalar _ => true
  | _ => false

/-- Whether values of the type can be added. -/
def isNumeric : FieldType → Bool
  | scalar .int => true
  | scalar .float => true
  | _ => false

/-- Whether the type is the given scalar type. -/
def isA (t : ScalarType) : FieldType → Bool
  | scalar u => u == t
  | _ => false

/-- The element type of an array. -/
def element? : FieldType → Option FieldType
  | array e => some e
  | _ => none

/-- The declared members of an object, or of the objects at the bottom of nested arrays. -/
def memberFields? : FieldType → Option (Dict FieldType)
  | object fields => some fields
  | array e => memberFields? e
  | scalar _ => none

mutual

/-- Whether a value may be stored under the type. An object may leave members out, but has no
undeclared ones. -/
def conforms : FieldType → Value → Bool
  | scalar t, v => v.isNull || t.conforms v
  | object fields, v =>
    match v with
    | .null => true
    | .object ms => ms.all fun (k, x) => memberConforms fields k x
    | _ => false
  | array e, v =>
    match v with
    | .null => true
    | .array items => items.all fun x => conforms e x
    | _ => false

/-- Whether a member is declared and its value conforms. -/
def memberConforms : List (String × FieldType) → String → Value → Bool
  | [], _, _ => false
  | (name, t) :: rest, k, v => if name = k then conforms t v else memberConforms rest k v

end

/-! ## Written form -/

mutual

/-- The written form of a type. -/
def toValue : FieldType → Value
  | scalar t => .object [("type", .string t.name)]
  | object fields => .object [("fields", .object (fieldValues fields)), ("type", .string "object")]
  | array e => .object [("element_type", toValue e), ("type", .string "array")]

/-- The written forms of declared members. -/
def fieldValues : List (String × FieldType) → List (String × Value)
  | [] => []
  | (k, t) :: rest => (k, toValue t) :: fieldValues rest

end

/-- The kind of a type, which decides how the rest of its written form is read. -/
inductive Kind where
  /-- A scalar type, which has no further parts. -/
  | scalar (t : ScalarType)
  /-- An object, whose members are in `fields`. -/
  | object
  /-- An array, whose element type is in `element_type`. -/
  | array

/-- All kinds, in the order of their numbers. -/
def Kind.all : List Kind := ScalarType.all.map .scalar ++ [.object, .array]

/-- The name of a kind. -/
def Kind.name : Kind → String
  | .scalar t => t.name
  | .object => "object"
  | .array => "array"

/-- Reads a kind by its exact name. Inside another document part it may also be given by its number. -/
def kindDecoder (inner : Bool) : Decoder Kind
  | .string s =>
    match Kind.all.find? fun k => k.name == s with
    | some k => .ok k
    | none => .error .malformed
  | .int n =>
    match inner, n with
    | true, .ofNat i =>
      match Kind.all[i]? with
      | some k => .ok k
      | none => .error .malformed
    | _, _ => .error .malformed
  | _ => .error .malformed

/-- Fails unless there is exactly one. -/
def only {α : Type} : List α → Except Fault α
  | [a] => .ok a
  | _ => .error .malformed

/-- Reads the single part of an object or array type from the remaining members. -/
def namedPart (name : String) (ms : List (Option String × Node)) : Except Fault Node :=
  only ((ms.filter fun m => m.1 == some name).map Prod.snd)

/-- Reads a type of at most `levels` nested types; `inner` tells whether it stands inside another
document part. A type is tagged: its kind is the member `type`, or the first item of an array. -/
def read : Nat → Bool → Node → Except Fault FieldType
  | 0, _, _ => .error .malformed
  | levels + 1, inner, .object ms => do
    let tag ← only ((ms.filter fun m => m.1 == some "type").map Prod.snd)
    let kind ← kindDecoder inner tag
    let rest := ms.filter fun m => m.1 != some "type"
    if rest.all fun m => m.1.isSome && m.2.toValue?.isSome then
      match kind with
      | .scalar t => return scalar t
      | .object => return object (← Decoder.dict (read levels true) (← namedPart "fields" rest))
      | .array => return array (← read levels true (← namedPart "element_type" rest))
    else throw .malformed
  | levels + 1, inner, .array (tag :: rest) => do
    let kind ← kindDecoder inner tag
    if rest.all fun n => n.toValue?.isSome then
      match kind, rest with
      | .scalar t, [] => return scalar t
      | .object, [part] => return object (← Decoder.dict (read levels true) part)
      | .array, [part] => return array (← read levels true part)
      | _, _ => throw .malformed
    else throw .malformed
  | _, _, _ => .error .malformed

/-- Reads a type that is a document of its own. -/
def decoder : Decoder FieldType := fun n => read (n.depth + 1) false n

/-- Reads a type inside another document part. -/
def innerDecoder : Decoder FieldType := fun n => read (n.depth + 1) true n

end FieldType

end GuardedQuery
