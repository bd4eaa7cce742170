import GuardedQuery.Predicate.Matching
import GuardedQuery.Schema.Entity
import GuardedQuery.Storage.Error

/-!
# Stores

What a query needs of the place where records are kept: the declaration of an entity, the records that
pass a predicate in a fixed order, and their number. A read is told whether the query has been cancelled,
and may find that it was cancelled meanwhile.

## Main definitions

* `Reply`: the reply to a read.
* `Storage`: what a store can be asked.
-/

namespace GuardedQuery

/-- How a store went about a read. -/
inductive Conduct where
  /-- It answered of its own accord. -/
  | prompt
  /-- It did not answer before the query was cancelled. -/
  | stalled
  /-- It broke down, and with it whatever was waiting for the reply. -/
  | broken
deriving DecidableEq, Repr

/-- The reply to a read. -/
structure Reply (α : Type) where
  /-- The outcome of the read. -/
  result : Except StorageError α
  /-- Whether the query is cancelled by now. -/
  cancelled : Bool
  /-- How the store went about it. -/
  conduct : Conduct := .prompt

namespace Reply

variable {α β : Type}

/-- Applies a function to a good outcome. -/
def map (f : α → β) (r : Reply α) : Reply β :=
  { r with result := r.result.map f }

end Reply

/-- The records found by a read. -/
structure Scan where
  /-- The records that pass the predicate. -/
  records : List Record
  /-- The number of records looked at. -/
  examined : Nat
deriving DecidableEq

/-- What a store can be asked. Reads are given the entity's name, the predicate, and whether the query is
cancelled. -/
class Storage (σ : Type) where
  /-- The declaration of an entity. -/
  schema? : σ → String → Option EntitySchema
  /-- The names of all entities. -/
  entities : σ → List String
  /-- The records that pass a predicate. -/
  scan : σ → String → Predicate → Bool → Reply Scan
  /-- The number of records that pass a predicate. -/
  count : σ → String → Predicate → Bool → Reply Nat := fun store entity p cancelled =>
    (scan store entity p cancelled).map fun found => found.records.length

end GuardedQuery
