import GuardedQuery.Json.Value
import GuardedQuery.Query.Vocabulary

/-!
# Queries

A query as a client writes it, before anything in it has been checked: vocabulary symbols are still
texts, so that the validator can report each unknown one.

## Main definitions

* `Condition`: a filter tree of leaves and groups, with its depth and its number of nodes.
* `Query`: the parts of a query.
* `Aggregation.outputName`: the column that an aggregation fills.
-/

namespace GuardedQuery

/-- A node of a filter tree. -/
inductive Condition where
  /-- A test of one field. A missing operand and the operand `null` are the same. -/
  | leaf (field operator : String) (value : Option Value)
  /-- Conditions that combine by a logic, which is a conjunction if it is missing. -/
  | group (conditions : List Condition) (logic : Option String)
deriving Inhabited

namespace Condition

mutual

/-- Decides equality of conditions by recursion on both. -/
def decEq : (a b : Condition) → Decidable (a = b)
  | leaf f o v, leaf g p w =>
    if h : f = g ∧ o = p ∧ v = w then isTrue (by rw [h.1, h.2.1, h.2.2])
    else isFalse (by simpa using h)
  | group cs l, group ds m =>
    match decEqList cs ds with
    | isTrue h => if hl : l = m then isTrue (by rw [h, hl]) else isFalse (by simp [hl])
    | isFalse h => isFalse (by simp [h])
  | leaf .., group .. | group .., leaf .. => isFalse (by simp)

/-- Decides equality of lists of conditions. -/
def decEqList : (a b : List Condition) → Decidable (a = b)
  | [], [] => isTrue rfl
  | [], _ :: _ => isFalse (by simp)
  | _ :: _, [] => isFalse (by simp)
  | c :: cs, d :: ds =>
    match decEq c d, decEqList cs ds with
    | isTrue h, isTrue hs => isTrue (by rw [h, hs])
    | isFalse h, _ => isFalse (by simp [h])
    | _, isFalse hs => isFalse (by simp [hs])

end

instance : DecidableEq Condition := decEq

/-- The conjunction of conditions. -/
def allOf (conditions : List Condition) : Condition := group conditions (some "and")

mutual

/-- The number of nodes on the longest path into the tree. -/
def depth : Condition → Nat
  | leaf .. => 1
  | group cs _ => 1 + depthList cs

/-- The greatest depth of a tree in the list. -/
def depthList : List Condition → Nat
  | [] => 0
  | c :: rest => max (depth c) (depthList rest)

end

mutual

/-- The number of leaves and groups in the tree. -/
def nodeCount : Condition → Nat
  | leaf .. => 1
  | group cs _ => 1 + nodeCountList cs

/-- The number of leaves and groups in the trees of the list. -/
def nodeCountList : List Condition → Nat
  | [] => 0
  | c :: rest => nodeCount c + nodeCountList rest

end

end Condition

/-- One sort key. -/
structure SortItem where
  /-- The field or output column. -/
  field : String
  /-- The direction symbol. -/
  direction : String := "asc"
deriving DecidableEq

/-- Which page of the answer is wanted. -/
structure PageRequest where
  /-- The number of rows. -/
  size : Option Int := none
  /-- The place after which the page starts. -/
  cursor : Option String := none
deriving DecidableEq

/-- An operation on the sequence of rows. -/
structure Operation where
  /-- The operation's symbol. -/
  kind : String
  /-- What the operation works with. -/
  parameters : Record := []
deriving DecidableEq

namespace Operation

/-- A parameter that is there and is not `null`. -/
def parameter? (o : Operation) (name : String) : Option Value :=
  (Dict.get? o.parameters name).filter fun v => !v.isNull

/-- A parameter that is a text. -/
def textParameter? (o : Operation) (name : String) : Option String :=
  (o.parameter? name).bind Value.asString?

end Operation

/-- Grouping of rows by the values of fields. -/
structure Grouping where
  /-- The fields. -/
  fields : List String := []
  /-- The conditions on the finished groups. -/
  having : List Condition := []
deriving DecidableEq

/-- A column computed for every group. -/
structure Aggregation where
  /-- The function's symbol. -/
  function : String
  /-- The field it condenses. -/
  field : Option String := none
  /-- The name of the column. -/
  outputAlias : Option String := none
deriving DecidableEq

/-- The name of the column: the alias if it is not blank, or else the function's symbol, followed by the
field if there is one. -/
def Aggregation.outputName (a : Aggregation) : String :=
  match a.outputAlias.filter fun s => !Text.isBlankText s with
  | some s => s
  | none =>
    match a.field.filter fun f => f ≠ "" with
    | some f => Text.symbol a.function ++ "_" ++ f
    | none => Text.symbol a.function

/-- The attachment of another entity's records. -/
structure Join where
  /-- The kind's symbol. -/
  kind : String := "join"
  /-- The name of the other entity. -/
  entity : String := ""
  /-- The field of the other entity that each field must equal. -/
  on : Dict String := []
  /-- The fields of the other entity to attach. -/
  select : List String := []
deriving DecidableEq

/-- Wishes about how the query is answered. -/
structure Hints where
  /-- Whether the total number of matching records is wanted. -/
  includeCount : Bool := false
  /-- How long the answer may be kept. -/
  cacheTtlSeconds : Option Nat := none
deriving DecidableEq

/-- A query. -/
structure Query where
  /-- The name of the entity. -/
  entity : String := ""
  /-- The conditions on records, all of which must hold. -/
  filters : List Condition := []
  /-- The sort keys, the most significant first. -/
  sort : List SortItem := []
  /-- The fields to answer with; all of them if the list is empty. -/
  select : List String := []
  /-- The page. -/
  page : Option PageRequest := none
  /-- The operations, in order. -/
  operations : List Operation := []
  /-- The grouping. -/
  groupBy : Option Grouping := none
  /-- The columns of a grouped query. -/
  aggregations : List Aggregation := []
  /-- The joins, in order. -/
  joins : List Join := []
  /-- The hints. -/
  hints : Option Hints := none
deriving DecidableEq

namespace Query

/-- Whether the answer has one row for every group. -/
def isGrouped (q : Query) : Bool := q.groupBy.any fun g => !g.fields.isEmpty

/-- Whether the total number of matching records is wanted. -/
def wantsCount (q : Query) : Bool := q.hints.any fun h => h.includeCount

/-- The query with another cursor. -/
def withCursor (q : Query) (cursor : Option String) : Query :=
  { q with page := some { q.page.getD {} with cursor } }

end Query

end GuardedQuery
