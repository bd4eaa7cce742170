import GuardedQuery.Query.Builder

/-!
# Scripts

A query can be written down as the steps that build it: a list of calls, each an array of the name of a
step and its arguments. A missing argument counts as empty, and calls of other names are skipped.

## Main definitions

* `ConditionStep.ofCalls`: the steps of a list of calls that add conditions.
* `QueryStep.ofCalls`: the steps of a list of calls that build a query.
-/

namespace GuardedQuery

/-- The arguments of a call. -/
abbrev Arguments := List Value

namespace Arguments

/-- The argument at a position. -/
def value (l : Arguments) (i : Nat) : Value := (l[i]?).getD .null

/-- The text at a position. -/
def text (l : Arguments) (i : Nat) : String := (l.value i).asString?.getD ""

/-- The text at a position, if there is one. -/
def text? (l : Arguments) (i : Nat) : Option String := (l.value i).asString?

/-- The number at a position. -/
def number (l : Arguments) (i : Nat) : Nat := (l.value i).asUInt64?.getD 0

/-- The list at a position. -/
def items (l : Arguments) (i : Nat) : List Value := (l.value i).asArray?.getD []

/-- The texts in the list at a position. -/
def texts (l : Arguments) (i : Nat) : List String := (l.items i).filterMap Value.asString?

/-- The pairs of texts in the list at a position. -/
def pairs (l : Arguments) (i : Nat) : List (String × String) :=
  (l.items i).map fun p =>
    let pair : Arguments := p.asArray?.getD []
    (pair.text 0, pair.text 1)

end Arguments

/-- The names of steps that add a test, with the operators of the tests. -/
def testNames : List (String × FilterOperator) :=
  [("equals", .eq), ("not_equals", .ne), ("less_than", .lt), ("less_than_or_equal", .lte),
   ("greater_than", .gt), ("greater_than_or_equal", .gte), ("contains", .contains),
   ("starts_with", .startsWith), ("ends_with", .endsWith), ("equals_ignore_case", .equalsIgnoreCase)]

namespace ConditionStep

/-- The step of a call that adds a single test. -/
def ofTest? (name : String) (args : Arguments) : Option ConditionStep :=
  let field := args.text 0
  match testNames.lookup name with
  | some op => some (.test field op (some (if op.isText then .string (args.text 1) else args.value 1)))
  | none =>
    match name with
    | "filter" => some (.filter field (args.text 1) args[2]?)
    | "is_in" => some (.test field .isIn (some (.array (args.items 1))))
    | "is_null" => some (.test field .isNull none)
    | "is_not_null" => some (.test field .isNotNull none)
    | _ => none

mutual

/-- The step of a call that adds a condition. -/
def ofCall? : Value → Option ConditionStep
  | .array (.string "and_group" :: .array calls :: _) => some (.group .and (ofCalls calls))
  | .array (.string "or_group" :: .array calls :: _) => some (.group .or (ofCalls calls))
  | .array (.string "and_group" :: _) => some (.group .and [])
  | .array (.string "or_group" :: _) => some (.group .or [])
  | .array (.string name :: args) => ofTest? name args
  | _ => none

/-- The steps of a list of calls that add conditions. -/
def ofCalls : List Value → List ConditionStep
  | [] => []
  | call :: rest => (ofCall? call).toList ++ ofCalls rest

end

end ConditionStep

namespace QueryStep

/-- The step of a call that does not add a filter condition. -/
def ofArguments? (name : String) (args : Arguments) : Option QueryStep :=
  let field := args.text 0
  match name with
  | "entity" => some (.entity field)
  | "max_page_size" => some (.maxPageSize (args.number 0))
  | "filters" => some (.filters (ConditionStep.ofCalls (args.items 0)))
  | "order_by" | "then_by" => some (.orderBy field .asc)
  | "order_by_descending" | "then_by_descending" => some (.orderBy field .desc)
  | "select" => some (.select (args.texts 0))
  | "page_size" => some (.pageSize (args.number 0))
  | "cursor" => some (.cursor field)
  | "include_count" => some .includeCount
  | "cache_ttl_seconds" => some (.cacheTtlSeconds (args.number 0))
  | "select_many" => some (.selectMany field)
  | "distinct" => some (.operation .distinct)
  | "skip" => some (.skip (args.number 0))
  | "take" => some (.take (args.number 0))
  | "any" => some (.quantified false field (ConditionStep.ofCalls (args.items 1)))
  | "all" => some (.quantified true field (ConditionStep.ofCalls (args.items 1)))
  | "reverse" => some (.operation .reverse)
  | "first" => some (.operation .first)
  | "first_or_default" => some (.operation .firstOrDefault)
  | "single" => some (.operation .single)
  | "single_or_default" => some (.operation .singleOrDefault)
  | "group_by" => some (.groupBy (args.texts 0))
  | "having" => some (.having (ConditionStep.ofCalls (args.items 0)))
  | "count" => some (.aggregate .count none (args.text? 0))
  | "sum" => some (.aggregate .sum (some field) (args.text? 1))
  | "average" => some (.aggregate .avg (some field) (args.text? 1))
  | "min" => some (.aggregate .min (some field) (args.text? 1))
  | "max" => some (.aggregate .max (some field) (args.text? 1))
  | "join" => some (.join .join field (args.pairs 1) (args.texts 2))
  | "group_join" => some (.join .groupJoin field (args.pairs 1) (args.texts 2))
  | _ => none

/-- The step of a call. A condition on its own is a filter. -/
def ofCall? (call : Value) : Option QueryStep :=
  match ConditionStep.ofCall? call, call with
  | some s, _ => some (.filters [s])
  | none, .array (.string name :: args) => ofArguments? name args
  | none, _ => none

/-- The steps of a list of calls that build a query. -/
def ofCalls (calls : List Value) : List QueryStep := calls.filterMap ofCall?

end QueryStep

end GuardedQuery
