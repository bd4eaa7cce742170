import GuardedQuery.Schema.FieldType
import GuardedQuery.Text.LowerCase

/-!
# Entity schemas

A schema declares an entity: its name, its fields with their types, and the field that identifies a
record. Only declared fields ever reach a stored record.

## Main definitions

* `EntitySchema`, with its look-up key and the test for a usable identity.
* `EntitySchema.conform`: the record with exactly the declared fields.
-/

namespace GuardedQuery

/-- The declaration of an entity. -/
structure EntitySchema where
  /-- The name, in the case in which it was declared. -/
  name : String
  /-- The field that identifies a record. -/
  identity : String := "Id"
  /-- The declared fields. -/
  fields : Dict FieldType := []
deriving Inhabited

/-- A field value that does not conform to its declared type. -/
structure Nonconforming where
  /-- The field. -/
  field : String
  /-- The name of the declared type. -/
  expected : String
deriving DecidableEq, Repr

/-- Entities are looked up by their name in lower case. -/
def entityKey (name : String) : String := Text.lower name

namespace EntitySchema

/-- The name under which the entity is looked up. -/
def key (s : EntitySchema) : String := entityKey s.name

/-- The declared type of a field. -/
def fieldType? (s : EntitySchema) (field : String) : Option FieldType := Dict.get? s.fields field

/-- Whether a field is declared. -/
def hasField (s : EntitySchema) (field : String) : Bool := Dict.contains s.fields field

/-- Declares a field, in place of an earlier declaration. -/
def withField (s : EntitySchema) (field : String) (t : FieldType) : EntitySchema :=
  { s with fields := Dict.insert s.fields field t }

/-- Whether the identity is declared as a scalar. -/
def hasValidIdentity (s : EntitySchema) : Bool := (s.fieldType? s.identity).any FieldType.isScalar

/-- The value of a declared field in a record: `null` if the record lacks it, and an error if it does not
conform to the declared type. -/
def conformField (record : Record) (field : String) (t : FieldType) : Except Nonconforming (String × Value) :=
  match Dict.get? record field with
  | none => .ok (field, .null)
  | some v => if t.conforms v then .ok (field, v) else .error { field, expected := t.name }

/-- The record with exactly the declared fields. The first field in name order that does not conform is
reported. -/
def conform (s : EntitySchema) (record : Record) : Except Nonconforming Record :=
  s.fields.mapM fun (field, t) => conformField record field t

/-! ## Written form -/

/-- The fields of a written schema, with the reader for field types. -/
def documentFields (fieldType : Decoder FieldType) : List (Field EntitySchema) :=
  [.mandatory "name" Decoder.string fun v s => { s with name := v },
   .optional "identity" Decoder.string fun v s => { s with identity := v },
   .optional "fields" (Decoder.dict fieldType) fun v s => { s with fields := v }]

/-- Reads a schema. -/
def decoder : Decoder EntitySchema := Decoder.ofFields (documentFields FieldType.decoder) { name := "" }

/-- The written form of a schema. -/
def toValue (s : EntitySchema) : Value :=
  .ofMembers
    [("name", .string s.name), ("identity", .string s.identity),
     ("fields", .object (FieldType.fieldValues s.fields))]

end EntitySchema

end GuardedQuery
