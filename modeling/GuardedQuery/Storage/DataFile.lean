import GuardedQuery.Journal.Scope
import GuardedQuery.Storage.Store

/-!
# Data files

A data file lists entities. Each is an object that holds the members of a schema next to the records.
-/

namespace GuardedQuery

/-- An entity of a data file. -/
structure EntityData where
  /-- The declaration. -/
  schema : EntitySchema
  /-- The records. -/
  records : List Record := []

namespace EntityData

/-- Reads an entity. Since the members of the schema stand between others, each of them must be a value by
itself before the schema is read. -/
def decoder : Decoder EntityData
  | .object ms => do
    let isRecords (m : Option String × Node) : Bool := m.1 == some "records"
    let rest := ms.filter fun m => !isRecords m
    if rest.all fun m => m.1.isSome && m.2.toValue?.isSome then
      let records ← match ms.filter isRecords with
        | [] => .ok []
        | [m] => Decoder.list Decoder.record m.2
        | _ => .error .malformed
      let schema ←
        Decoder.ofFields (EntitySchema.documentFields FieldType.innerDecoder) { name := "" } (.object rest)
      return { schema, records }
    else throw .malformed
  | _ => .error .malformed

end EntityData

namespace Store

/-- Reads the entities of a data file. -/
def dataDecoder : Decoder (List EntityData) :=
  Decoder.ofFields [.optional "entities" (Decoder.list EntityData.decoder) fun v _ => v] []

/-- Adds an entity with its records. -/
def addData (s : Store) (data : EntityData) : Except StorageError Store := do
  let s ← s.register data.schema
  s.insert data.schema.name data.records

/-- The store of a data file. -/
def ofText (text : String) : Except StorageError Store :=
  match Decoder.run dataDecoder text with
  | .error _ => .error .malformed
  | .ok entities => entities.foldlM addData {}

/-- The store of a data file that may be unreadable, and the lines that tell of its loading. -/
def load (path : String) (contents : Except String String) (micros : Nat) :
    Except StorageError Store × List LogLine :=
  let scope : Scope := { name := "DATA_LOAD", fields := [("path", path)] }
  let loaded := match contents with
    | .error reason => .error (.unreadable reason)
    | .ok text => ofText text
  let last := match loaded with
    | .ok s => scope.completed [("entities", toString s.entities.length)] micros
    | .error e => scope.failed e.code
  (loaded, [scope.begun, last])

end Store

end GuardedQuery
