import GuardedQuery.Json.Writer
import GuardedQuery.Predicate.Compile
import GuardedQuery.Predicate.Matching
import GuardedQuery.Query.Document

/-!
# Operations on sequences

Operations work on the rows of a query one after the other. Most of them work on records before these are
sorted and projected; some work on the finished rows. Reversing counts twice: it turns the rows round for
the operations after it, and an odd number of reversals turns the final order round.

## Main definitions

* `Operation.onRecords`, `Operation.onAllRecords`: the operations before projection.
* `Operation.onRows`, `Operation.onAllRows`: the operations after projection.
* `Operation.reverses`: whether the final order is turned round.
-/

namespace GuardedQuery

/-- Each element whose shape no earlier element has. Shapes are compared by their text. -/
def distinctBy {α : Type} (shape : α → Record) (seen : List String) : List α → List α
  | [] => []
  | a :: rest =>
    let text := (Value.object (shape a)).toText
    if seen.contains text then distinctBy shape seen rest else a :: distinctBy shape (text :: seen) rest

namespace Operation

/-- The kind of an operation. -/
def kindOf (o : Operation) : Except QueryError OperationKind :=
  match OperationKind.parse? o.kind with
  | some kind => .ok kind
  | none => .error (.unsupportedOperator o.kind)

/-- The count of an operation. -/
def countOf (o : Operation) : Except QueryError Nat :=
  match (o.parameter? "count").bind Value.asUInt64? with
  | some n => .ok n
  | none => .error (.invalidOperation (.count o.kind))

/-- The collection that is to be unwound. -/
def unwoundField (o : Operation) (schema : EntitySchema) : Except QueryError String :=
  match o.textParameter? "field" with
  | none => .error (.invalidOperation .noTarget)
  | some field =>
    match schema.fieldType? field with
    | some (.array _) => .ok field
    | some t => .error (.invalidOperation (.noCollection field t.name))
    | none => .error (.unknownField schema.name field)

/-- One row for every item of a row's collection, with the item in the collection's place. -/
def unwind (field : String) (row : Record) : List Record :=
  match Dict.get? row field with
  | some (.array items) => items.map fun item => Dict.insert row field item
  | _ => []

/-- The predicate of a quantifier. -/
def quantifier (o : Operation) (kind : OperationKind) (schema : EntitySchema) : Except QueryError Predicate :=
  match o.textParameter? "collection", o.parameter? "predicate" with
  | none, _ => .error (.invalidOperation (.missingCollection kind))
  | some _, none => .error (.invalidOperation (.missingPredicate kind))
  | some collection, some v =>
    match Condition.ofPredicate v with
    | .error reason => .error (.invalidOperation (.predicate kind reason))
    | .ok conditions => schema.columns.compileQuantified (kind == .all) collection conditions

/-- Applies an operation that works on records; other operations change nothing here. -/
def onRecords (o : Operation) (schema : EntitySchema) (maxTake : Nat) (rows : List Record) :
    Except QueryError (List Record) := do
  match ← o.kindOf with
  | .selectMany => return rows.flatMap (unwind (← o.unwoundField schema))
  | .distinct => return distinctBy id [] rows
  | .skip => return rows.drop (← o.countOf)
  | .take => return rows.take (min (← o.countOf) maxTake)
  | .any => return rows.filter (← o.quantifier .any schema).holds
  | .all => return rows.filter (← o.quantifier .all schema).holds
  | .reverse => return rows.reverse
  | .first | .firstOrDefault | .single | .singleOrDefault => return rows

/-- Applies the operations that work on records, in order. -/
def onAllRecords (schema : EntitySchema) (maxTake : Nat) :
    List Operation → List Record → Except QueryError (List Record)
  | [], rows => .ok rows
  | o :: rest, rows => do onAllRecords schema maxTake rest (← o.onRecords schema maxTake rows)

/-- Whether the final order is turned round. -/
def reverses : List Operation → Except QueryError Bool
  | [] => .ok false
  | o :: rest => do
    let kind ← o.kindOf
    let later ← reverses rest
    return xor kind.flipsOrder later

/-- Applies an operation that works on finished rows; other operations change nothing here. A wish for a
single row keeps two, so that the client can tell that there are more. -/
def onRows {α : Type} (o : Operation) (shape : α → Record) (rows : List α) : Except QueryError (List α) := do
  match ← o.kindOf with
  | .distinct => return distinctBy shape [] rows
  | .first | .firstOrDefault => return rows.take 1
  | .single | .singleOrDefault => return rows.take 2
  | .selectMany | .skip | .take | .any | .all | .reverse => return rows

/-- Applies the operations that work on finished rows, in order. -/
def onAllRows {α : Type} (shape : α → Record) : List Operation → List α → Except QueryError (List α)
  | [], rows => .ok rows
  | o :: rest, rows => do onAllRows shape rest (← o.onRows shape rows)

end Operation

end GuardedQuery
