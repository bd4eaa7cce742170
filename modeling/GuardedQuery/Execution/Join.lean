import GuardedQuery.Execution.Run
import GuardedQuery.Predicate.Compile

/-!
# Joins

A join attaches records of another entity to the rows at hand. An inner join makes a row of every matching
pair, with the attached fields under names that start with the entity's; a group join keeps every row and
attaches all its matches in one list under the entity's name. What a row already holds under such a name is replaced.

## Main definitions

* `Join.matching`: whether a record matches a row.
* `Join.attach`: the rows that come of one row.
* `Join.applyAll`: the joins of a query, one after the other.
-/

namespace GuardedQuery

/-- The column with the identity of the joined record. -/
def EntitySchema.joinedIdentity (joined : EntitySchema) : String := s!"{joined.name}.{joined.identity}"

namespace Join

/-- Whether every field that the join names has, in the joined record, the value of its counterpart. -/
def matching (j : Join) (row candidate : Record) : Bool :=
  j.on.all fun (source, target) => (Record.value row source).isMatch (Record.value candidate target)

/-- A row with a matching record beside it: the record's identity and the selected fields. -/
def beside (j : Join) (joined : EntitySchema) (row candidate : Record) : Record :=
  j.select.foldl
    (fun combined f => Dict.insert combined s!"{joined.name}.{f}" (Record.value candidate f))
    (Dict.insert row joined.joinedIdentity (Record.value candidate joined.identity))

/-- The selected fields of a matching record. -/
def element (j : Join) (candidate : Record) : Value :=
  .ofMembers (j.select.map fun f => (f, Record.value candidate f))

/-- The rows that come of one row. -/
def attach (j : Join) (kind : JoinKind) (joined : EntitySchema) (candidates : List Record) (row : Record) :
    List Record :=
  let found := candidates.filter (j.matching row)
  match kind with
  | .join => found.map (j.beside joined row)
  | .groupJoin => [Dict.insert row joined.name (.array (found.map j.element))]

/-- Fails unless a field is declared. -/
def requireField (schema : EntitySchema) (field : String) : Except QueryError Unit :=
  if schema.hasField field then .ok () else .error (.unknownField schema.name field)

/-- Fails unless all fields that the join names are declared. -/
def requireFields (j : Join) (root joined : EntitySchema) : Except QueryError Unit := do
  j.on.forM fun (source, target) => do
    requireField root source
    requireField joined target
  j.select.forM (requireField joined)

/-- The kind of the join. -/
def kindOf (j : Join) : Except QueryError JoinKind :=
  match JoinKind.parse? j.kind with
  | some kind => .ok kind
  | none => .error (.invalidOperation (.joinKind j.kind))

/-- Applies a join to rows that took a number of examined records so far. -/
def apply {σ : Type} [Storage σ] (store : σ) (root : EntitySchema) (j : Join) (rows : List Record)
    (examined : Nat) : Run (List Record × Nat) := do
  let kind ← Step.ofExcept j.kindOf
  let joined ← Step.require (.unknownEntity j.entity) (Storage.schema? store j.entity)
  Step.ofExcept (j.requireFields root joined)
  let found ← Run.scan store joined.name .always
  if rows.isEmpty then return ([], examined + found.examined)
  else do
    Run.unlessCancelled
    return (rows.flatMap (j.attach kind joined found.records), examined + found.examined)

/-- Applies the joins of a query in order. -/
def applyAll {σ : Type} [Storage σ] (store : σ) (root : EntitySchema) :
    List Join → List Record → Nat → Run (List Record × Nat)
  | [], rows, examined => return (rows, examined)
  | j :: rest, rows, examined => do
    let (rows, examined) ← j.apply store root rows examined
    applyAll store root rest rows examined

end Join

end GuardedQuery
