import GuardedQuery.Json.Writer
import GuardedQuery.Order
import GuardedQuery.Predicate.Compile
import GuardedQuery.Predicate.Matching

/-!
# Groups

A grouped query has one row for every combination of values of its group fields, in the order in which the
combinations first appear. The row holds these values and the columns that condense the records of the
group. Conditions on groups are compiled against the columns of the row.

## Main definitions

* `Column`: an aggregation whose function and field are resolved.
* `Column.compute`: the value of a column for the records of a group.
* `Group.ofRecords`: the groups of a list of records.
* `Query.groupRows`, `Query.groupKeys`: the rows of a grouped query and the keys that order them.
-/

namespace GuardedQuery

/-- An aggregation whose function and field are resolved. -/
structure Column where
  /-- The function. -/
  function : AggregateFunction
  /-- The field it condenses, with its declared type. -/
  field : Option (String × FieldType)
  /-- The name of the column. -/
  output : String

namespace Column

/-- Whether a function can condense the values of a field. -/
def applies : AggregateFunction → FieldType → Bool
  | .count, _ => true
  | .sum, t | .avg, t => t.isNumeric
  | .min, t | .max, t => t.isScalar

/-- Resolves an aggregation. A blank field counts as none. -/
def resolve (schema : EntitySchema) (a : Aggregation) : Except QueryError Column :=
  match AggregateFunction.parse? a.function with
  | none => .error (.unsupportedOperator a.function)
  | some function =>
    match a.field.filter fun f => !Text.isBlankText f with
    | none =>
      if function.requiresField then .error (.invalidOperation (.missingField function))
      else .ok { function, field := none, output := a.outputName }
    | some name =>
      match schema.fieldType? name with
      | none => .error (.unknownField schema.name name)
      | some t =>
        if applies function t then .ok { function, field := some (name, t), output := a.outputName }
        else .error (.invalidOperation (.aggregate function name t.name))

/-- The type of the column. -/
def type (c : Column) : FieldType :=
  match c.function, c.field with
  | .count, _ => .scalar .int
  | .avg, _ => .scalar .float
  | _, some (_, t) => t
  | _, none => .scalar .int

/-- The values of the column's field, without nulls. -/
def values (c : Column) (members : List Record) : List Value :=
  match c.field with
  | some (name, _) => members.filterMap fun r => Predicate.actual? r name
  | none => []

/-- The order in which least and greatest values are found. -/
def compare (c : Column) (a b : Value) : Ordering :=
  match c.field with
  | some (_, t) => if t.isA .datetime then a.compareTemporal b else a.compare b
  | none => a.compare b

/-- The sum of two signed 64-bit integers, if it is one. -/
def addInt? (a b : Int) : Option Int :=
  if int64Min ≤ a + b ∧ a + b ≤ int64Max then some (a + b) else none

/-- The sum of integers from left to right; no partial sum may leave the signed 64-bit integers. -/
def sumInts? (ns : List Int) : Option Int := ns.foldlM addInt? 0

/-- The sum of numbers from left to right. It starts at negative zero, so that it is negative zero if all
terms are, and is nothing once it overflows. -/
def sumFloats? (xs : List Binary64) : Option Binary64 := xs.foldlM Binary64.add (.zero true)

/-- The average of numbers. -/
def average? (xs : List Binary64) : Option Binary64 :=
  if xs.isEmpty then none else (sumFloats? xs).bind fun s => s.divNat xs.length

/-- The first of the least values. -/
def least? (compare : Value → Value → Ordering) : List Value → Option Value
  | [] => none
  | v :: rest => some (rest.foldl (fun m x => if compare m x == .gt then x else m) v)

/-- The last of the greatest values. -/
def greatest? (compare : Value → Value → Ordering) : List Value → Option Value
  | [] => none
  | v :: rest => some (rest.foldl (fun m x => if compare m x == .gt then m else x) v)

/-- The sum of the column's values. -/
def sum (c : Column) (members : List Record) : Except QueryError Value :=
  match c.field with
  | some (name, .scalar .int) =>
    match sumInts? ((c.values members).filterMap Value.asInt64?) with
    | some n => .ok (.int n)
    | none => .error (.invalidOperation (.sumOverflow name))
  | _ => .ok (.ofBinary64? (sumFloats? ((c.values members).filterMap Value.asBinary64?)))

/-- The value of the column for the records of a group. -/
def compute (c : Column) (members : List Record) : Except QueryError Value :=
  match c.function with
  | .count => .ok (.ofNat (if c.field.isNone then members.length else (c.values members).length))
  | .sum => c.sum members
  | .avg => .ok (.ofBinary64? (average? ((c.values members).filterMap Value.asBinary64?)))
  | .min => .ok (.ofOption (least? c.compare (c.values members)))
  | .max => .ok (.ofOption (greatest? c.compare (c.values members)))

end Column

/-- The records that share the values of the group fields. -/
structure Group where
  /-- The values, in the order of the fields. -/
  key : List Value
  /-- The records, in order. -/
  members : List Record

namespace Group

/-- The values of the group fields in a record. -/
def keyOf (fields : List String) (record : Record) : List Value := fields.map (Record.value record)

/-- The text by which keys are told apart. -/
def keyText (key : List Value) : String := (Value.array key).toText

/-- Adds a record to the group with its key, or makes a new group of it behind all others. -/
def add (key : List Value) (record : Record) : List Group → List Group
  | [] => [{ key, members := [record] }]
  | g :: rest =>
    if keyText g.key = keyText key then { g with members := g.members ++ [record] } :: rest
    else g :: add key record rest

/-- The groups of a list of records, in the order in which their keys first appear. -/
def ofRecords (fields : List String) (records : List Record) : List Group :=
  records.foldl (fun groups r => add (keyOf fields r) r groups) []

/-- The row of a group: the group fields, then the columns. -/
def row (fields : List String) (columns : List Column) (g : Group) : Except QueryError Record :=
  columns.foldlM
    (fun row c => (c.compute g.members).map fun v => Dict.insert row c.output v)
    ((fields.zip g.key).foldl (fun row p => Dict.insert row p.1 p.2) [])

/-- The rows of groups that pass a predicate. -/
def rows (fields : List String) (columns : List Column) (having : Predicate) :
    List Group → Except QueryError (List Record)
  | [] => .ok []
  | g :: rest => do
    let row ← g.row fields columns
    let others ← rows fields columns having rest
    return if having.holds row then row :: others else others

end Group

/-- The direction of a sort key. -/
def SortItem.directionOf (s : SortItem) : Except QueryError Direction :=
  match Direction.parse? s.direction with
  | some d => .ok d
  | none => .error (.invalidOperation (.direction s.direction))

namespace Query

/-- The declared types of the group fields. -/
def groupFieldTypes (schema : EntitySchema) (fields : List String) :
    Except QueryError (List (String × FieldType)) :=
  fields.mapM fun f =>
    match schema.fieldType? f with
    | some t => .ok (f, t)
    | none => .error (.unknownField schema.name f)

/-- The sort key that a request asks for on the rows of a grouped query. -/
def groupKey (types : Dict FieldType) (s : SortItem) : Except QueryError SortKey :=
  if Dict.contains types s.field then do
    let direction ← s.directionOf
    return SortKey.typed { field := s.field, direction } (Dict.get? types s.field)
  else .error (.sortNotProjected s.field)

/-- Adds an ascending key for a column that no key names yet. -/
def withTieBreaker (keys : List SortKey) (field : String) (type : Option FieldType) : List SortKey :=
  if keys.any fun k => k.field == field then keys
  else keys ++ [SortKey.typed { field } type]

/-- The keys that order the rows of a grouped query: the requested ones, then the group fields. -/
def groupKeys (types : Dict FieldType) (sort : List SortItem) (fields : List String) :
    Except QueryError (List SortKey) := do
  let keys ← sort.mapM (groupKey types)
  return fields.foldl (fun keys f => withTieBreaker keys f (Dict.get? types f)) keys

/-- The rows of a grouped query, unsorted, and the keys that order them. -/
def groupRows (q : Query) (schema : EntitySchema) (records : List Record) :
    Except QueryError (List Record × List SortKey) :=
  match q.groupBy with
  | none => .error (.invalidOperation .noGrouping)
  | some g => do
    let fieldTypes ← groupFieldTypes schema g.fields
    let columns ← q.aggregations.mapM (Column.resolve schema)
    let types := Dict.ofList (fieldTypes ++ columns.map fun c => (c.output, c.type))
    let having ← Columns.compileAll { scope := s!"{schema.name} groups", fields := types } g.having
    let rows ← Group.rows g.fields columns having (Group.ofRecords g.fields records)
    let keys ← groupKeys types q.sort g.fields
    return (rows, keys)

end Query

end GuardedQuery
