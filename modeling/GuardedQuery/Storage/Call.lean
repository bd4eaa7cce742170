import GuardedQuery.Storage.Store

/-!
# Calls on a store

A call changes a store in place: it replies, and leaves a store behind whether it succeeds or fails. Records are
added to their table one after the other. If one of them is refused, those before it are already there, so the
table is cut back to the records and the identities that it had before the call.

## Main definitions

* `Table.insertBatch`: adding records to a table in place.
* `Store.Call`, `Store.perform`: the calls that change a store, with the reply and the store after it.
* `Store.performAll`: the store after several calls.
-/

namespace GuardedQuery

namespace Table

/-- Adds records in place, up to the first one that is refused. -/
def insertUpTo (t : Table) : List Record → Except StorageError Unit × Table
  | [] => (.ok (), t)
  | record :: rest =>
    match t.insert record with
    | .ok t => insertUpTo t rest
    | .error e => (.error e, t)

/-- Cuts a table back to its first records, with the identities it had then. -/
def cutBack (t : Table) (size : Nat) (identities : List String) : Table :=
  { t with records := t.records.take size, identities }

/-- Adds records in place, all of them or none. The reply is the number of records that the table has gained. -/
def insertBatch (t : Table) (batch : List Record) : Except StorageError Nat × Table :=
  match t.insertUpTo batch with
  | (.ok (), after) => (.ok (after.records.length - t.records.length), after)
  | (.error e, after) => (.error e, after.cutBack t.records.length t.identities)

end Table

namespace Store

/-- A call that changes a store. -/
inductive Call where
  /-- Adds an entity without records. -/
  | register (schema : EntitySchema)
  /-- Adds records to an entity. -/
  | insert (entity : String) (batch : List Record)

/-- The reply to a call, which is the number of records that the store has gained, and the store after it. -/
def perform (s : Store) : Call → Except StorageError Nat × Store
  | .register schema =>
    match s.register schema with
    | .ok s => (.ok 0, s)
    | .error e => (.error e, s)
  | .insert entity batch =>
    match s.table? entity with
    | none => (.error (.unknownEntity entity), s)
    | some t =>
      let (reply, after) := t.insertBatch batch
      (reply, { tables := Dict.insert s.tables (entityKey entity) after })

/-- The store after several calls, whatever their replies. -/
def performAll (s : Store) (calls : List Call) : Store := calls.foldl (fun s call => (s.perform call).2) s

end Store

end GuardedQuery
