import GuardedQuery.Execution.Groups
import GuardedQuery.Execution.Join
import GuardedQuery.Execution.Response
import GuardedQuery.Execution.Sequence
import GuardedQuery.Policy.Basic
import GuardedQuery.Projection.Registry

/-!
# Answering queries

An accepted query is answered in fixed steps: read the matching records, attach joined records, apply the
operations on records, then either group or project, sort, apply the operations on rows, cut out the page,
count if wanted, and give the items their form. The same query on the same data has the same answer.

## Main definitions

* `Query.recordKeys`: the keys that order the rows of an ungrouped query.
* `Query.sorting`, `Query.arrange`: the rows of a query, and their sort.
* `Query.answer`: the answer of a query.
-/

namespace GuardedQuery

/-- A row before and after projection. Sorting and paging go by the source. -/
structure ShapedRow where
  /-- The row that the query works on. -/
  source : Record
  /-- The row of the answer. -/
  shaped : Record

/-- A row with its projection. A query without a binding is grouped, and its rows are their own shape. -/
def ShapedRow.ofRecord (binding : Option Binding) (r : Record) : ShapedRow where
  source := r
  shaped := match binding with
    | some b => b.project r
    | none => r

namespace Query

/-- The sort key that a request asks for on the rows of an ungrouped query. -/
def recordKey (schema : EntitySchema) (b : Binding) (s : SortItem) : Except QueryError SortKey := do
  let direction ← s.directionOf
  if (b.targetOf? s.field).isNone then .error (.sortNotProjected s.field)
  else return SortKey.typed { field := s.field, direction } (schema.fieldType? s.field)

/-- Adds the identity of an inner-joined entity, since one record can make many rows. -/
def withJoinedIdentity (lookUp : String → Option EntitySchema) (keys : List SortKey) (j : Join) :
    Except QueryError (List SortKey) :=
  if JoinKind.parse? j.kind = some .join then
    match lookUp j.entity with
    | some joined => .ok (withTieBreaker keys joined.joinedIdentity (joined.fieldType? joined.identity))
    | none => .error (.unknownEntity j.entity)
  else .ok keys

/-- The keys that order the rows of an ungrouped query: the requested ones, then the identity, then the
identities of inner-joined entities. Keys name fields, and not members of the answer. -/
def recordKeys (q : Query) (lookUp : String → Option EntitySchema) (schema : EntitySchema) (b : Binding) :
    Except QueryError (List SortKey) := do
  let keys ← q.sort.mapM (recordKey schema b)
  if (b.targetOf? schema.identity).isNone then .error (.sortNotProjected schema.identity)
  else
    q.joins.foldlM (withJoinedIdentity lookUp)
      (withTieBreaker keys schema.identity (schema.fieldType? schema.identity))

/-- The keys as they are, or all of them turned round. -/
def orient (reversed : Bool) (keys : List SortKey) : List SortKey :=
  if reversed then keys.map SortKey.reversed else keys

/-- The rows that a query sorts, and the keys that order them. A query without a binding is grouped. -/
def sorting (q : Query) (lookUp : String → Option EntitySchema) (schema : EntitySchema) (binding : Option Binding)
    (rows : List Record) : Except QueryError (List Record × List SortKey) := do
  let reversed ← Operation.reverses q.operations
  match binding with
  | none =>
    let (rows, keys) ← q.groupRows schema rows
    return (rows, orient reversed keys)
  | some b => return (rows, orient reversed (← q.recordKeys lookUp schema b))

/-- The sorted rows of a query, before and after projection, with the keys that order them. -/
def arrange (q : Query) (lookUp : String → Option EntitySchema) (schema : EntitySchema) (binding : Option Binding)
    (rows : List Record) : Run (List ShapedRow × List SortKey) := do
  let (rows, keys) ← Step.ofExcept (q.sorting lookUp schema binding rows)
  let sorted ← Run.sort keys rows
  return (sorted.map (ShapedRow.ofRecord binding), keys)

/-- The binding of a query, which grouped queries do not have. -/
def bindingFor (q : Query) (registry : Registry) (target : String) (schema : EntitySchema) :
    Except QueryError (Option Binding) :=
  if q.isGrouped then .ok none
  else
    match registry.get? target schema.name with
    | some b => .ok (some b)
    | none => .error (.missingProjection schema.name target)

/-- The item of a row. -/
def item {α : Type} (q : Query) (target : Target α) (binding : Option Binding) (row : ShapedRow) :
    Except QueryError α :=
  let record := match binding with
    | some b => b.narrow q.select row.shaped
    | none => row.shaped
  (target.materialize record).mapError .materialization

/-- The answer of a query. -/
def answer {σ α : Type} [Storage σ] (q : Query) (policy : Policy) (store : σ) (registry : Registry)
    (target : Target α) : Run (Response α) := do
  let schema ← Step.require (.unknownEntity q.entity) (Storage.schema? store q.entity)
  let binding ← Step.ofExcept (q.bindingFor registry target.label schema)
  let predicate ← Step.ofExcept (schema.columns.compileAll q.filters)
  let found ← Run.scan store schema.name predicate
  let (rows, examined) ← Join.applyAll store schema q.joins found.records found.examined
  let rows ← Step.ofExcept (Operation.onAllRecords schema policy.maxPageSize q.operations rows)
  Run.unlessCancelled
  let (rows, keys) ← q.arrange (Storage.schema? store) schema binding rows
  let rows ← Step.ofExcept (Operation.onAllRows ShapedRow.shaped q.operations rows)
  let size := policy.effectivePageSize (q.page.bind PageRequest.size)
  let page ← Run.page schema.name keys size (q.page.bind PageRequest.cursor) ShapedRow.source rows
  let total ← if q.wantsCount then Run.count store schema.name predicate else pure none
  let items ← Step.ofExcept (page.rows.mapM (q.item target binding))
  return { items, size, nextCursor := page.next, totalCount := total, rowsExamined := examined }

end Query

end GuardedQuery
