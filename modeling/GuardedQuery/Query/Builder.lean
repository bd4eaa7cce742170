import GuardedQuery.Query.Document

/-!
# Building queries step by step

A query can be built by a sequence of steps instead of being read from a text. Steps only check that
names are not blank and that operator symbols are known. A mistaken step changes nothing but the
remembered mistake, and finishing the query reports it.

## Main definitions

* `ConditionStep`, `ConditionDraft.apply`: steps that add conditions to a list.
* `QueryStep`, `QueryDraft.apply`: steps that add to a query.
* `Query.build`: the query that a sequence of steps makes.
-/

namespace GuardedQuery

/-- The place where a name must not be blank. -/
inductive NamePlace where
  /-- The field of a condition. -/
  | filter
  /-- A sort field. -/
  | sort
  /-- A selected field. -/
  | select
  /-- The collection to unwind. -/
  | selectMany
  /-- The collection of a quantified predicate. -/
  | collection
  /-- A group field. -/
  | groupBy
  /-- The field of an aggregation. -/
  | aggregation
  /-- The entity of a join. -/
  | joinEntity
  /-- The own field of a join pair. -/
  | joinSource
  /-- The other entity's field of a join pair. -/
  | joinTarget
deriving DecidableEq, Repr

/-- The name of the place in messages. -/
def NamePlace.name : NamePlace → String
  | filter => "filter"
  | sort => "sort"
  | select => "select"
  | selectMany => "selectMany"
  | collection => "collection"
  | groupBy => "groupBy"
  | aggregation => "aggregation"
  | joinEntity => "join entity"
  | joinSource => "join source"
  | joinTarget => "join target"

/-- A mistake in building a query. -/
inductive BuilderError where
  /-- The entity is blank or was never given. -/
  | missingEntity
  /-- A name is blank. -/
  | emptyField (place : NamePlace)
  /-- An operator symbol is not known. -/
  | unknownOperator (symbol : String)
deriving DecidableEq, Repr

namespace BuilderError

/-- The code of a mistake. -/
def code : BuilderError → String
  | missingEntity => "AERO_QUERY_BUILDER_MISSING_ENTITY"
  | emptyField _ => "AERO_QUERY_BUILDER_EMPTY_FIELD"
  | unknownOperator _ => "AERO_QUERY_BUILDER_UNKNOWN_OPERATOR"

/-- The message of a mistake. -/
def message : BuilderError → String
  | missingEntity => "Query entity was never set"
  | emptyField place => s!"Field name must not be empty ({place.name})"
  | unknownOperator symbol => s!"Unknown filter operator: {symbol}"

end BuilderError

/-! ## Conditions -/

/-- A step that adds a condition. -/
inductive ConditionStep where
  /-- A test whose operator is given by its symbol. -/
  | filter (field operator : String) (value : Option Value)
  /-- A test. -/
  | test (field : String) (operator : FilterOperator) (value : Option Value)
  /-- A nested group, built by steps of its own. -/
  | group (logic : Logic) (steps : List ConditionStep)

/-- A list of conditions under construction. -/
structure ConditionDraft where
  /-- The conditions so far. -/
  conditions : List Condition := []
  /-- The first mistake. -/
  error : Option BuilderError := none

namespace ConditionDraft

/-- Remembers a mistake, unless there was one before. -/
def fail (d : ConditionDraft) (e : BuilderError) : ConditionDraft := { d with error := d.error.or (some e) }

/-- Adds a condition. -/
def push (d : ConditionDraft) (c : Condition) : ConditionDraft :=
  { d with conditions := d.conditions ++ [c] }

/-- Adds a test of a field, whose name must not be blank. -/
def pushTest (d : ConditionDraft) (field : String) (op : FilterOperator) (value : Option Value) :
    ConditionDraft :=
  if Text.isBlankText field then d.fail (.emptyField .filter) else d.push (.leaf field op.symbol value)

mutual

/-- Takes one step. A group is added even if its steps were mistaken. -/
def apply (d : ConditionDraft) : ConditionStep → ConditionDraft
  | .filter field operator value =>
    match FilterOperator.parse? operator with
    | some op => d.pushTest field op value
    | none => d.fail (.unknownOperator operator)
  | .test field op value => d.pushTest field op value
  | .group logic steps =>
    let inner := applyAll {} steps
    { conditions := d.conditions ++ [.group inner.conditions (some logic.symbol)]
      error := d.error.or inner.error }

/-- Takes steps in order. -/
def applyAll (d : ConditionDraft) : List ConditionStep → ConditionDraft
  | [] => d
  | s :: rest => applyAll (apply d s) rest

end

/-- The finished conditions. -/
def finish (d : ConditionDraft) : Except BuilderError (List Condition) :=
  match d.error with
  | some e => .error e
  | none => .ok d.conditions

/-- The finished conditions as one: a single condition by itself, others as a conjunction. -/
def finishAsOne (d : ConditionDraft) : Except BuilderError Condition := do
  match ← d.finish with
  | [c] => return c
  | cs => return .allOf cs

end ConditionDraft

/-! ## Queries -/

/-- A step that adds to a query. -/
inductive QueryStep where
  /-- Names the entity. -/
  | entity (name : String)
  /-- Changes the greatest page size that later steps may set. -/
  | maxPageSize (n : Nat)
  /-- Adds filter conditions. -/
  | filters (steps : List ConditionStep)
  /-- Adds a sort key. -/
  | orderBy (field : String) (direction : Direction)
  /-- Adds selected fields. -/
  | select (fields : List String)
  /-- Sets the page size. -/
  | pageSize (n : Nat)
  /-- Sets the cursor. -/
  | cursor (text : String)
  /-- Asks for the total count. -/
  | includeCount
  /-- Sets how long the answer may be kept. -/
  | cacheTtlSeconds (n : Nat)
  /-- Unwinds a collection. -/
  | selectMany (field : String)
  /-- Adds an operation without parameters. -/
  | operation (kind : OperationKind)
  /-- Leaves out the first rows. -/
  | skip (n : Nat)
  /-- Keeps the first rows. -/
  | take (n : Nat)
  /-- Keeps the rows where elements of a collection match; all of them if `universal`. -/
  | quantified (universal : Bool) (collection : String) (steps : List ConditionStep)
  /-- Adds group fields. -/
  | groupBy (fields : List String)
  /-- Adds conditions on the groups. -/
  | having (steps : List ConditionStep)
  /-- Adds a column. -/
  | aggregate (function : AggregateFunction) (field column : Option String)
  /-- Adds a join. -/
  | join (kind : JoinKind) (entity : String) (on : List (String × String)) (select : List String)

/-- A query under construction. -/
structure QueryDraft where
  /-- The query so far, without its filters and conditions on groups. -/
  query : Query := {}
  /-- The filters so far. -/
  filters : ConditionDraft := {}
  /-- The conditions on groups so far. -/
  having : ConditionDraft := {}
  /-- The greatest page size. -/
  maxPageSize : Nat := 200
  /-- The first mistake outside filters and conditions on groups. -/
  error : Option BuilderError := none

namespace QueryDraft

/-- Remembers a mistake, unless there was one before. -/
def fail (d : QueryDraft) (e : BuilderError) : QueryDraft := { d with error := d.error.or (some e) }

/-- Goes on only with a name that is not blank. -/
def withName (d : QueryDraft) (name : String) (place : NamePlace) (next : QueryDraft → QueryDraft) :
    QueryDraft :=
  if Text.isBlankText name then d.fail (.emptyField place) else next d

/-- Changes the query. -/
def modify (d : QueryDraft) (f : Query → Query) : QueryDraft := { d with query := f d.query }

/-- Adds an operation. -/
def push (d : QueryDraft) (kind : OperationKind) (parameters : Record) : QueryDraft :=
  d.modify fun q => { q with operations := q.operations ++ [{ kind := kind.symbol, parameters }] }

/-- The names that are not blank, with a mistake remembered for the others. -/
def keepNames (d : QueryDraft) (names : List String) (place : NamePlace) : QueryDraft × List String :=
  names.foldl
    (fun (d, kept) name =>
      if Text.isBlankText name then (d.fail (.emptyField place), kept) else (d, kept ++ [name]))
    (d, [])

/-- The pairs of which neither name is blank, with a mistake remembered for the others. -/
def keepPairs (d : QueryDraft) (pairs : List (String × String)) : QueryDraft × Dict String :=
  pairs.foldl
    (fun (d, kept) (source, target) =>
      if Text.isBlankText source then (d.fail (.emptyField .joinSource), kept)
      else if Text.isBlankText target then (d.fail (.emptyField .joinTarget), kept)
      else (d, Dict.insert kept source target))
    (d, [])

/-- Changes the page request, making one if there is none. -/
def modifyPage (d : QueryDraft) (f : PageRequest → PageRequest) : QueryDraft :=
  d.modify fun q => { q with page := some (f (q.page.getD {})) }

/-- Changes the hints, making some if there are none. -/
def modifyHints (d : QueryDraft) (f : Hints → Hints) : QueryDraft :=
  d.modify fun q => { q with hints := some (f (q.hints.getD {})) }

/-- Changes the grouping, making one if there is none. -/
def modifyGrouping (d : QueryDraft) (f : Grouping → Grouping) : QueryDraft :=
  d.modify fun q => { q with groupBy := some (f (q.groupBy.getD {})) }

/-- Adds a quantified predicate. -/
def pushQuantified (d : QueryDraft) (universal : Bool) (collection : String) (steps : List ConditionStep) :
    QueryDraft :=
  match (ConditionDraft.applyAll {} steps).finishAsOne with
  | .error e => d.fail e
  | .ok c =>
    d.push (if universal then .all else .any)
      [("collection", .string collection), ("predicate", c.toValue)]

/-- Adds a join. -/
def pushJoin (d : QueryDraft) (kind : JoinKind) (entity : String) (on : List (String × String))
    (select : List String) : QueryDraft :=
  let (d, on) := d.keepPairs on
  d.modify fun q => { q with joins := q.joins ++ [{ kind := kind.symbol, entity, on, select }] }

/-- Adds a column. -/
def pushAggregate (d : QueryDraft) (function : AggregateFunction) (field column : Option String) :
    QueryDraft :=
  d.modify fun q =>
    { q with aggregations := q.aggregations ++ [{ function := function.symbol, field, outputAlias := column }] }

/-- Takes one step. -/
def apply (d : QueryDraft) : QueryStep → QueryDraft
  | .entity name => d.modify fun q => { q with entity := name }
  | .maxPageSize n => { d with maxPageSize := max n 1 }
  | .filters steps => { d with filters := d.filters.applyAll steps }
  | .orderBy field direction =>
    d.withName field .sort fun d =>
      d.modify fun q => { q with sort := q.sort ++ [{ field, direction := direction.symbol }] }
  | .select fields =>
    let (d, fields) := d.keepNames fields .select
    d.modify fun q => { q with select := q.select ++ fields }
  | .pageSize n => d.modifyPage fun p => { p with size := some (min (max n 1) d.maxPageSize : Nat) }
  | .cursor text => d.modifyPage fun p => { p with cursor := some text }
  | .includeCount => d.modifyHints fun h => { h with includeCount := true }
  | .cacheTtlSeconds n => d.modifyHints fun h => { h with cacheTtlSeconds := some n }
  | .selectMany field =>
    d.withName field .selectMany fun d => d.push .selectMany [("field", .string field)]
  | .operation kind => d.push kind []
  | .skip n => d.push .skip [("count", .ofNat n)]
  | .take n => d.push .take [("count", .ofNat n)]
  | .quantified universal collection steps =>
    d.withName collection .collection fun d => d.pushQuantified universal collection steps
  | .groupBy fields =>
    let (d, fields) := d.keepNames fields .groupBy
    d.modifyGrouping fun g => { g with fields := g.fields ++ fields }
  | .having steps => { d with having := d.having.applyAll steps }
  | .aggregate function field column =>
    match field with
    | none => d.pushAggregate function none column
    | some name => d.withName name .aggregation fun d => d.pushAggregate function (some name) column
  | .join kind entity on select =>
    d.withName entity .joinEntity fun d => d.pushJoin kind entity on select

/-- The finished query. -/
def finish (d : QueryDraft) : Except BuilderError Query :=
  match d.error with
  | some e => .error e
  | none =>
    if Text.isBlankText d.query.entity then .error .missingEntity
    else do
      let q := { d.query with filters := ← d.filters.finish }
      match ← d.having.finish with
      | [] => return q
      | having => return { q with groupBy := some { q.groupBy.getD {} with having } }

end QueryDraft

/-- The query that a sequence of steps makes. -/
def Query.build (steps : List QueryStep) : Except BuilderError Query :=
  (steps.foldl QueryDraft.apply {}).finish

end GuardedQuery
