import GuardedQuery.Schema.Entity

/-!
# Accessor tables

An accessor table declares an entity over items of some other type: besides its type, every field has a
function that reads it from an item. The schema and the readers always name the same fields.
-/

namespace GuardedQuery

/-- An entity over items of the type `ε`. -/
structure AccessorTable (ε : Type) where
  /-- The declared entity. -/
  schema : EntitySchema
  /-- The reader of each field, in the order of the declarations. -/
  getters : List (String × (ε → Value)) := []

namespace AccessorTable

variable {ε : Type}

/-- A table without fields. -/
def empty (entity : String) : AccessorTable ε where
  schema := { name := entity }

/-- Names the field that identifies an item. -/
def withIdentity (t : AccessorTable ε) (field : String) : AccessorTable ε :=
  { t with schema := { t.schema with identity := field } }

/-- Declares a field, in place of an earlier declaration. -/
def withField (t : AccessorTable ε) (field : String) (type : FieldType) (getter : ε → Value) :
    AccessorTable ε where
  schema := t.schema.withField field type
  getters := t.getters.filter (fun g => g.1 ≠ field) ++ [(field, getter)]

/-- The value of a declared field. -/
def get? (t : AccessorTable ε) (item : ε) (field : String) : Option Value :=
  (t.getters.find? fun g => g.1 == field).map fun g => g.2 item

/-- The values of all declared fields. -/
def toRecord (t : AccessorTable ε) (item : ε) : Record :=
  Dict.ofList (t.getters.map fun g => (g.1, g.2 item))

/-! ## Declarations -/

/-- A step in the making of a table. -/
inductive Declaration (ε : Type) where
  /-- Names the field that identifies an item. -/
  | identity (field : String)
  /-- Declares a field, in place of an earlier declaration. -/
  | field (name : String) (type : FieldType) (getter : ε → Value)

/-- The table after a declaration. -/
def declare (t : AccessorTable ε) : Declaration ε → AccessorTable ε
  | .identity field => t.withIdentity field
  | .field name type getter => t.withField name type getter

/-- The table that declarations make, one after the other. -/
def ofDeclarations (entity : String) (ds : List (Declaration ε)) : AccessorTable ε := ds.foldl declare (empty entity)

end AccessorTable

end GuardedQuery
