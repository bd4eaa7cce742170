import GuardedQuery.Json.Decode
import GuardedQuery.Json.Writer
import GuardedQuery.Query.Model

/-!
# The written form of a query

Queries travel as JSON. A filter node is one structure for leaves and groups: with `conditions` it is a
group, otherwise a leaf, and a node that is both is refused. Most parts at their default are not written, and
the others are written in the order in which they are declared.

## Main definitions

* `Condition.decoder`, `Condition.toValue`: filter trees.
* `Query.ofText`, `Query.toText`: whole queries.
-/

namespace GuardedQuery

namespace Condition

/-- The parts of a filter node before it is known to be a leaf or a group. -/
structure Parts where
  /-- The field of a leaf. -/
  field : String := ""
  /-- The operator of a leaf. -/
  operator : String := ""
  /-- The operand of a leaf. -/
  value : Option Value := none
  /-- The conditions of a group. -/
  conditions : Option (List Condition) := none
  /-- The logic of a group. -/
  logic : Option String := none

/-- The node that the parts make up. -/
def ofParts (p : Parts) : Except Fault Condition :=
  match p.conditions with
  | none => .ok (leaf p.field p.operator p.value)
  | some cs =>
    if p.field ≠ "" ∨ p.operator ≠ "" ∨ p.value.isSome then .error (.mixedCondition p.field)
    else .ok (group cs p.logic)

/-- The fields of a filter node, with the reader of nested nodes. -/
def documentFields (nested : Decoder Condition) : List (Field Parts) :=
  [.optional "field" Decoder.string fun v p => { p with field := v },
   .optional "operator" Decoder.string fun v p => { p with operator := v },
   .optional "value" (Decoder.option Decoder.value) fun v p => { p with value := v },
   .optional "conditions" (Decoder.option (Decoder.list nested)) fun v p => { p with conditions := v },
   .optional "logic" (Decoder.option Decoder.string) fun v p => { p with logic := v }]

/-- Reads a filter tree of at most `levels` nested groups. -/
def read : Nat → Decoder Condition
  | 0, _ => .error .malformed
  | levels + 1, n => do ofParts (← Decoder.ofFields (documentFields (read levels)) {} n)

/-- Reads a filter tree. -/
def decoder : Decoder Condition := fun n => read (n.depth + 1) n

/-- A member for a text that is not empty. -/
def textMember (name s : String) : List (String × Value) := if s = "" then [] else [(name, .string s)]

mutual

/-- The written form of a filter tree. -/
def toValue : Condition → Value
  | leaf field operator value =>
    .object (textMember "field" field ++ textMember "operator" operator
      ++ (value.map fun v => ("value", v)).toList)
  | group cs logic =>
    .object (("conditions", .array (toValues cs)) :: (logic.map fun l => ("logic", .string l)).toList)

/-- The written forms of the trees of a list. -/
def toValues : List Condition → List Value
  | [] => []
  | c :: rest => toValue c :: toValues rest

end

/-- Reads a list of filter trees from a value. -/
def listOfValue (v : Value) : Except Fault (List Condition) :=
  Decoder.ofValue (Decoder.list decoder) v

/-- The conditions of a quantified predicate: one condition, or a list of at least one. -/
def ofPredicate : Value → Except String (List Condition)
  | .object ms =>
    match Decoder.ofValue decoder (.object ms) with
    | .ok c => .ok [c]
    | .error f => .error f.message
  | .array items =>
    match listOfValue (.array items) with
    | .ok [] => .error "predicate is empty"
    | .ok cs => .ok cs
    | .error f => .error f.message
  | v => .error s!"expected an object or array, got {v.toText}"

end Condition

namespace SortItem

/-- Reads a sort key. -/
def decoder : Decoder SortItem :=
  Decoder.ofFields
    [.mandatory "field" Decoder.string fun v s => { s with field := v },
     .optional "direction" Decoder.string fun v s => { s with direction := v }]
    { field := "" }

/-- The written form of a sort key. -/
def toValue (s : SortItem) : Value :=
  .object [("field", .string s.field), ("direction", .string s.direction)]

end SortItem

namespace PageRequest

/-- Reads a page request. -/
def decoder : Decoder PageRequest :=
  Decoder.ofFields
    [.optional "size" (Decoder.option Decoder.int64) fun v p => { p with size := v },
     .optional "cursor" (Decoder.option Decoder.string) fun v p => { p with cursor := v }]
    {}

/-- The written form of a page request. -/
def toValue (p : PageRequest) : Value :=
  .object ((p.size.map fun n => ("size", .int n)).toList
    ++ (p.cursor.map fun c => ("cursor", .string c)).toList)

end PageRequest

namespace Operation

/-- Reads an operation. -/
def decoder : Decoder Operation :=
  Decoder.ofFields
    [.mandatory "type" Decoder.string fun v o => { o with kind := v },
     .optional "parameters" Decoder.record fun v o => { o with parameters := v }]
    { kind := "" }

/-- The written form of an operation. -/
def toValue (o : Operation) : Value :=
  .object (("type", .string o.kind)
    :: (if o.parameters.isEmpty then [] else [("parameters", .object o.parameters)]))

end Operation

/-- A member for a list that is not empty. -/
def listMember (name : String) (l : List Value) : List (String × Value) :=
  if l.isEmpty then [] else [(name, .array l)]

namespace Grouping

/-- Reads a grouping. -/
def decoder : Decoder Grouping :=
  Decoder.ofFields
    [.optional "fields" (Decoder.list Decoder.string) fun v g => { g with fields := v },
     .optional "having" (Decoder.list Condition.decoder) fun v g => { g with having := v }]
    {}

/-- The written form of a grouping. -/
def toValue (g : Grouping) : Value :=
  .object (("fields", .ofStrings g.fields) :: listMember "having" (Condition.toValues g.having))

end Grouping

namespace Aggregation

/-- Reads an aggregation. -/
def decoder : Decoder Aggregation :=
  Decoder.ofFields
    [.mandatory "function" Decoder.string fun v a => { a with function := v },
     .optional "field" (Decoder.option Decoder.string) fun v a => { a with field := v },
     .optional "alias" (Decoder.option Decoder.string) fun v a => { a with outputAlias := v }]
    { function := "" }

/-- The written form of an aggregation. -/
def toValue (a : Aggregation) : Value :=
  .object (("function", .string a.function) :: (a.field.map fun f => ("field", .string f)).toList
    ++ (a.outputAlias.map fun s => ("alias", .string s)).toList)

end Aggregation

namespace Join

/-- Reads a join. -/
def decoder : Decoder Join :=
  Decoder.ofFields
    [.optional "type" Decoder.string fun v j => { j with kind := v },
     .optional "entity" Decoder.string fun v j => { j with entity := v },
     .optional "on" (Decoder.dict Decoder.string) fun v j => { j with on := v },
     .optional "select" (Decoder.list Decoder.string) fun v j => { j with select := v }]
    {}

/-- The written form of a join. -/
def toValue (j : Join) : Value :=
  .object ([("type", .string j.kind), ("entity", .string j.entity),
      ("on", .object (Dict.mapValues Value.string j.on))]
    ++ listMember "select" (j.select.map Value.string))

end Join

namespace Hints

/-- Reads hints. -/
def decoder : Decoder Hints :=
  Decoder.ofFields
    [.optional "includeCount" Decoder.bool fun v h => { h with includeCount := v },
     .optional "cacheTtlSeconds" (Decoder.option (Decoder.natUpTo 0xFFFFFFFFFFFFFFFF)) fun v h =>
       { h with cacheTtlSeconds := v }]
    {}

/-- The written form of hints. -/
def toValue (h : Hints) : Value :=
  .object (("includeCount", .bool h.includeCount)
    :: (h.cacheTtlSeconds.map fun n => ("cacheTtlSeconds", .ofNat n)).toList)

end Hints

namespace Query

/-- Reads a query. -/
def decoder : Decoder Query :=
  Decoder.ofFields
    [.optional "entity" Decoder.string fun v q => { q with entity := v },
     .optional "filters" (Decoder.list Condition.decoder) fun v q => { q with filters := v },
     .optional "sort" (Decoder.list SortItem.decoder) fun v q => { q with sort := v },
     .optional "select" (Decoder.list Decoder.string) fun v q => { q with select := v },
     .optional "page" (Decoder.option PageRequest.decoder) fun v q => { q with page := v },
     .optional "operations" (Decoder.list Operation.decoder) fun v q => { q with operations := v },
     .optional "groupBy" (Decoder.option Grouping.decoder) fun v q => { q with groupBy := v },
     .optional "aggregations" (Decoder.list Aggregation.decoder) fun v q => { q with aggregations := v },
     .optional "joins" (Decoder.list Join.decoder) fun v q => { q with joins := v },
     .optional "hints" (Decoder.option Hints.decoder) fun v q => { q with hints := v }]
    {}

/-- The written form of a query. -/
def toValue (q : Query) : Value :=
  .object (("entity", .string q.entity)
    :: listMember "filters" (Condition.toValues q.filters)
    ++ listMember "sort" (q.sort.map SortItem.toValue)
    ++ listMember "select" (q.select.map Value.string)
    ++ (q.page.map fun p => ("page", p.toValue)).toList
    ++ listMember "operations" (q.operations.map Operation.toValue)
    ++ (q.groupBy.map fun g => ("groupBy", g.toValue)).toList
    ++ listMember "aggregations" (q.aggregations.map Aggregation.toValue)
    ++ listMember "joins" (q.joins.map Join.toValue)
    ++ (q.hints.map fun h => ("hints", h.toValue)).toList)

/-- Reads a query from its text. -/
def ofText (text : String) : Except Fault Query := Decoder.run decoder text

/-- The text of a query. -/
def toText (q : Query) : String := q.toValue.toText

end Query

end GuardedQuery
