import GuardedQuery.Json.Node

/-!
# Typed documents

Decoders give the tree of a text a type. A structure is described once, by its fields, and is then read
from an object (names in any order, unknown names skipped, repeated names refused) and from an array
(the fields by position, trailing ones may be missing if they are optional).

## Main definitions

* `Decoder`, `Fault`: a reader of one part of a text, and why it refuses it.
* `Field`, `Decoder.ofFields`: a field of a structure, and the reader of the structure.
* `Decoder.run`: reads a whole text.
-/

namespace GuardedQuery

/-- Why a document is refused. -/
inductive Fault where
  /-- The text is not JSON, or a part of it has the wrong shape. -/
  | malformed
  /-- A filter node is both a condition and a group. -/
  | mixedCondition (field : String)
deriving DecidableEq, Repr

/-- The message of a fault. -/
def Fault.message : Fault → String
  | malformed => "invalid document"
  | mixedCondition field => s!"filter node '{field}' carries both a condition and nested conditions"

/-- A reader of one part of a text. -/
abbrev Decoder (α : Type) := Node → Except Fault α

/-- A field of a structure: how its part of the text changes the structure read so far. -/
structure Field (α : Type) where
  /-- The name of the field in an object. -/
  name : String
  /-- Whether the field must be there. -/
  required : Bool
  /-- Puts the field's value into the structure. -/
  read : Node → α → Except Fault α

namespace Decoder

variable {α β : Type}

/-- Reads any value. -/
def value : Decoder Value := fun n =>
  match n.toValue? with
  | some v => .ok v
  | none => .error .malformed

/-- Reads a text. -/
def string : Decoder String
  | .string s => .ok s
  | _ => .error .malformed

/-- Reads a truth value. -/
def bool : Decoder Bool
  | .bool b => .ok b
  | _ => .error .malformed

/-- Reads an integer between two bounds. -/
def intBetween (least greatest : Int) : Decoder Int
  | .int n => if least ≤ n ∧ n ≤ greatest then .ok n else .error .malformed
  | _ => .error .malformed

/-- Reads a signed 64-bit integer. -/
def int64 : Decoder Int := intBetween int64Min int64Max

/-- Reads a natural number up to a bound. -/
def natUpTo (greatest : Nat) : Decoder Nat := fun n => (intBetween 0 greatest n).map Int.toNat

/-- Reads `null` as an absent value. -/
def option (item : Decoder α) : Decoder (Option α)
  | .null => .ok none
  | n => (item n).map some

/-- Reads an array. -/
def list (item : Decoder α) : Decoder (List α)
  | .array items => items.mapM item
  | _ => .error .malformed

/-- Reads the members of an object in the order of the text. -/
def pairs (item : Decoder α) : Decoder (List (String × α))
  | .object ms => ms.mapM fun (k, n) =>
    match k with
    | some k => (item n).map fun v => (k, v)
    | none => .error .malformed
  | _ => .error .malformed

/-- Reads an object whose members are all of one kind; of two with one name the later stays. -/
def dict (item : Decoder α) : Decoder (Dict α) := fun n => (pairs item n).map Dict.ofList

/-- Reads an object with any members. -/
def record : Decoder Record := dict value

/-- Reads the members of an object as fields. Names that are no field are skipped. -/
def readMembers (fields : List (Field α)) (seen : List String) (a : α) :
    List (Option String × Node) → Except Fault α
  | [] => if fields.all fun f => !f.required || seen.contains f.name then .ok a else .error .malformed
  | (none, _) :: _ => .error .malformed
  | (some k, n) :: rest =>
    match fields.find? fun f => f.name == k with
    | none => if n.complete then readMembers fields seen a rest else .error .malformed
    | some f =>
      if seen.contains k then .error .malformed
      else do readMembers fields (k :: seen) (← f.read n a) rest

/-- Reads the items of an array as fields, by position. -/
def readPositions : List (Field α) → List Node → α → Except Fault α
  | [], [], a => .ok a
  | [], _ :: _, _ => .error .malformed
  | f :: fields, [], a => if f.required then .error .malformed else readPositions fields [] a
  | f :: fields, n :: rest, a => do readPositions fields rest (← f.read n a)

/-- Reads a structure from an object or an array; `start` holds the values of absent fields. -/
def ofFields (fields : List (Field α)) (start : α) : Decoder α
  | .object ms => readMembers fields [] start ms
  | .array items => readPositions fields items start
  | _ => .error .malformed

/-- Reads a whole text. -/
def run (decoder : Decoder α) (text : String) : Except Fault α := do
  let d := Json.draft text
  let a ← decoder d.root
  if d.ended then return a else throw .malformed

/-- Reads a value that is already there, as its text would be read. -/
def ofValue (decoder : Decoder α) (v : Value) : Except Fault α := decoder (Node.ofValue v)

end Decoder

namespace Field

variable {α β : Type}

/-- A field that must be there. -/
def mandatory (name : String) (item : Decoder β) (set : β → α → α) : Field α where
  name := name
  required := true
  read n a := (item n).map fun b => set b a

/-- A field that may be absent. -/
def optional (name : String) (item : Decoder β) (set : β → α → α) : Field α where
  name := name
  required := false
  read n a := (item n).map fun b => set b a

end Field

end GuardedQuery
