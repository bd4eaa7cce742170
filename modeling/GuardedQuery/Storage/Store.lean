import GuardedQuery.Json.Writer
import GuardedQuery.Schema.Accessor
import GuardedQuery.Storage.Basic

/-!
# The store in memory

A store holds a table for every entity. A table only takes conforming records, and no two of its records
have one identity. Inserting several records succeeds for all of them or for none.

## Main definitions

* `Table.insert`, `Table.insertAll`: adding records to a table.
* `Store.register`, `Store.insert`: adding entities and records to a store.
* `Store.scan`, `Store.count`: reading a store.
-/

namespace GuardedQuery

/-- The records of an entity. -/
structure Table where
  /-- The declaration. -/
  schema : EntitySchema
  /-- The records, oldest first. -/
  records : List Record := []
  /-- The texts of the identities in use. -/
  identities : List String := []
deriving Inhabited

namespace Table

/-- An empty table. -/
def ofSchema (schema : EntitySchema) : Except StorageError Table :=
  if schema.hasValidIdentity then .ok { schema } else .error (.invalidIdentity schema.name schema.identity)

/-- The text of a record's identity, unless it is missing or `null`. -/
def identityText? (t : Table) (record : Record) : Option String :=
  (Predicate.actual? record t.schema.identity).map Value.toText

/-- Adds a conforming record whose identity is new. -/
def insert (t : Table) (record : Record) : Except StorageError Table :=
  match t.schema.conform record with
  | .error e => .error (.typeMismatch t.schema.name e.field e.expected)
  | .ok record =>
    match t.identityText? record with
    | none => .error (.invalidIdentity t.schema.name t.schema.identity)
    | some identity =>
      if t.identities.contains identity then
        .error (.invalidRecord t.schema.name s!"duplicate identity {identity}")
      else .ok { t with records := t.records ++ [record], identities := t.identities ++ [identity] }

/-- Adds records in order. -/
def insertAll (t : Table) : List Record → Except StorageError Table
  | [] => .ok t
  | record :: rest =>
    match t.insert record with
    | .ok t => insertAll t rest
    | .error e => .error e

/-- Reads the records of a table one by one. A cancelled read ends at the first record. -/
def read {α : Type} (t : Table) (cancelled : Bool) (answer : List Record → α) : Except StorageError α :=
  if cancelled && !t.records.isEmpty then .error .cancelled else .ok (answer t.records)

end Table

/-- The tables by the look-up keys of their entities. -/
structure Store where
  /-- The tables. -/
  tables : Dict Table := []
deriving Inhabited

namespace Store

/-- The table of an entity. -/
def table? (s : Store) (entity : String) : Option Table := Dict.get? s.tables (entityKey entity)

/-- The table of an entity that must be there. -/
def table (s : Store) (entity : String) : Except StorageError Table :=
  match s.table? entity with
  | some t => .ok t
  | none => .error (.unknownEntity entity)

/-- Adds an entity without records. -/
def register (s : Store) (schema : EntitySchema) : Except StorageError Store :=
  match Table.ofSchema schema with
  | .error e => .error e
  | .ok t =>
    if Dict.contains s.tables schema.key then .error (.duplicateEntity schema.name)
    else .ok { tables := Dict.insert s.tables schema.key t }

/-- Adds records to an entity, all of them or none. -/
def insert (s : Store) (entity : String) (records : List Record) : Except StorageError Store := do
  let t ← s.table entity
  let t ← t.insertAll records
  return { tables := Dict.insert s.tables (entityKey entity) t }

/-- Adds an entity with the records of a list of items. If the records are refused, the entity stays,
without records. -/
def registerItems {ε : Type} (s : Store) (accessors : AccessorTable ε) (items : List ε) :
    Except StorageError Unit × Store :=
  match s.register accessors.schema with
  | .error e => (.error e, s)
  | .ok s =>
    match s.insert accessors.schema.name (items.map accessors.toRecord) with
    | .error e => (.error e, s)
    | .ok s => (.ok (), s)

/-- The number of records of an entity; an unknown entity has none. -/
def size (s : Store) (entity : String) : Nat :=
  match s.table? entity with
  | some t => t.records.length
  | none => 0

/-- The declaration of an entity. -/
def schema? (s : Store) (entity : String) : Option EntitySchema := (s.table? entity).map Table.schema

/-- The names of all entities, in increasing order. -/
def entities (s : Store) : List String :=
  (s.tables.map fun e => e.2.schema.name).mergeSort fun a b => decide (a ≤ b)

/-- The records of an entity that pass a predicate, oldest first. -/
def scan (s : Store) (entity : String) (p : Predicate) (cancelled : Bool) : Except StorageError Scan := do
  let t ← s.table entity
  t.read cancelled fun records => { records := records.filter p.holds, examined := records.length }

/-- The number of records of an entity that pass a predicate. -/
def count (s : Store) (entity : String) (p : Predicate) (cancelled : Bool) : Except StorageError Nat := do
  let t ← s.table entity
  t.read cancelled fun records => records.countP p.holds

end Store

instance : Storage Store where
  schema? := Store.schema?
  entities := Store.entities
  scan s entity p cancelled := { result := s.scan entity p cancelled, cancelled }
  count s entity p cancelled := { result := s.count entity p cancelled, cancelled }

end GuardedQuery
