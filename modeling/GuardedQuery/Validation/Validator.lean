import GuardedQuery.Policy.Basic
import GuardedQuery.Query.Document
import GuardedQuery.Validation.Error

/-!
# Validation

A query is checked against a policy as a whole: all violations are collected, in the order of the parts
of the query. A query without violations is accepted.

## Main definitions

* `FilterScope`: the permissions that a filter tree is checked against.
* `Policy.violations`: everything that is wrong with a query.
* `Policy.accepts`: the query has no violation.
-/

namespace GuardedQuery

/-- The permissions that a filter tree is checked against. -/
inductive FilterScope where
  /-- The filterable fields of an entity. -/
  | entity (p : EntityPolicy)
  /-- The filterable members of a collection. -/
  | collection (p : EntityPolicy) (name : String)
  /-- The columns of a grouped query: the outputs of aggregations, and the filterable group fields. -/
  | groups (p : EntityPolicy) (fields outputs : List String)

namespace FilterScope

/-- The entity policy behind the scope. -/
def policy : FilterScope → EntityPolicy
  | entity p => p
  | collection p _ => p
  | groups p _ _ => p

/-- The name by which the policy knows a field of the scope. -/
def policyName : FilterScope → String → String
  | collection _ name, field => name ++ "." ++ field
  | _, field => field

/-- Whether filters may test the field. -/
def allowsField : FilterScope → String → Bool
  | groups p fields outputs, field =>
    outputs.contains field || (fields.contains field && p.isFilterable field)
  | s, field => s.policy.isFilterable (s.policyName field)

/-- Whether filters may use the operator on the field. Outputs of aggregations allow all operators. -/
def allowsOperator (s : FilterScope) (field : String) (op : FilterOperator) : Bool :=
  match s with
  | groups p _ outputs => outputs.contains field || p.allowsOperator field op
  | s => s.policy.allowsOperator (s.policyName field) op

/-- The violation of testing a field that filters may not test. -/
def fieldViolation : FilterScope → String → Violation
  | groups .., field => .havingFieldNotAllowed field
  | s, field => .fieldNotAllowed (s.policyName field) s.policy.name .filtering

end FilterScope

/-- A violation, unless the condition holds. -/
def violationUnless (ok : Bool) (v : Violation) : List Violation := if ok then [] else [v]

namespace Condition

/-- The violations of a leaf. -/
def leafViolations (scope : FilterScope) (field operator : String) (value : Option Value) :
    List Violation :=
  if Text.isBlankText field then [.emptyField .filter]
  else
    violationUnless (scope.allowsField field) (scope.fieldViolation field) ++
    match FilterOperator.parse? operator with
    | none => [.unknownOperator operator field]
    | some op =>
      violationUnless (scope.allowsOperator field op)
        (.operatorNotAllowed op.symbol (scope.policyName field) scope.policy.name)
      ++ violationUnless (!(op.requiresValue && value.isNone)) (.valueRequired op.symbol field)
      ++ violationUnless (!(op.forbidsValue && value.isSome)) (.valueForbidden op.symbol field)

mutual

/-- The violations of a filter tree whose size is within the limits. -/
def nodeViolations (scope : FilterScope) : Condition → List Violation
  | leaf field operator value => leafViolations scope field operator value
  | group cs logic =>
    violationUnless (Logic.parse? logic).isSome (.unknownLogic (logic.getD ""))
    ++ violationUnless (!cs.isEmpty) .emptyGroup
    ++ listViolations scope cs

/-- The violations of the trees of a list. -/
def listViolations (scope : FilterScope) : List Condition → List Violation
  | [] => []
  | c :: rest => nodeViolations scope c ++ listViolations scope rest

end

end Condition

namespace Policy

/-- The violations of a list of filter trees. A list that is too deep or too large has one violation, and
nothing inside it is looked at. -/
def filterViolations (p : Policy) (scope : FilterScope) (cs : List Condition) : List Violation :=
  if p.maxDepth < Condition.depthList cs then [.filterTooDeep (Condition.depthList cs) p.maxDepth]
  else if p.maxNodes < Condition.nodeCountList cs then
    [.tooManyFilterNodes (Condition.nodeCountList cs) p.maxNodes]
  else Condition.listViolations scope cs

/-- The violations of the page request. -/
def pageViolations (p : Policy) (q : Query) : List Violation :=
  match q.page.bind PageRequest.size with
  | none => []
  | some size => violationUnless (1 ≤ size && size ≤ p.maxPageSize) (.pageSizeOutOfRange p.maxPageSize size)

end Policy

/-- The names of the columns that the aggregations of a query fill. -/
def Query.outputNames (q : Query) : List String := q.aggregations.map Aggregation.outputName

namespace EntityPolicy

/-- The violation of a use of a field that the policy does not allow. -/
def notAllowed (p : EntityPolicy) (field : String) (purpose : FieldPurpose) : Violation :=
  .fieldNotAllowed field p.name purpose

/-- The violations of a sort key. A grouped query may also be sorted by its output columns. -/
def sortViolations (e : EntityPolicy) (q : Query) (s : SortItem) : List Violation :=
  if Text.isBlankText s.field then [.emptyField .sort]
  else
    violationUnless ((q.isGrouped && q.outputNames.contains s.field) || e.isSortable s.field)
      (e.notAllowed s.field .sorting)
    ++ violationUnless (Direction.parse? s.direction).isSome (.invalidSortDirection s.field s.direction)

/-- A text parameter that is not blank. -/
def nameParameter? (o : Operation) (name : String) : Option String :=
  (o.textParameter? name).filter fun s => !Text.isBlankText s

/-- The violations of the count of an operation. -/
def countViolations (p : Policy) (kind : OperationKind) (o : Operation) : List Violation :=
  match o.parameter? "count" with
  | none => [.missingParameter kind.symbol "count"]
  | some v =>
    match v.asUInt64? with
    | none => [.invalidCount kind.symbol v.toText]
    | some n => violationUnless (!(kind == .take && p.maxPageSize < n)) (.takeExceedsMax n p.maxPageSize)

/-- The violations of a predicate on the elements of a collection. -/
def elementViolations (p : Policy) (e : EntityPolicy) (kind : OperationKind) (collection : String)
    (predicate : Value) : List Violation :=
  match Condition.ofPredicate predicate with
  | .error reason => [.invalidPredicate kind.symbol reason]
  | .ok cs => p.filterViolations (.collection e collection) cs

/-- The violations of a quantified operation. Its predicate is only looked at if its collection is named. -/
def quantifiedViolations (p : Policy) (e : EntityPolicy) (kind : OperationKind) (o : Operation) :
    List Violation :=
  let collection := nameParameter? o "collection"
  let predicate := o.parameter? "predicate"
  violationUnless collection.isSome (.missingParameter kind.symbol "collection")
  ++ violationUnless predicate.isSome (.missingParameter kind.symbol "predicate")
  ++ match collection, predicate with
    | some c, some v =>
      violationUnless (e.isFilterable c) (e.notAllowed c .filtering) ++ elementViolations p e kind c v
    | _, _ => []

/-- The violations of an operation. -/
def operationViolations (p : Policy) (e : EntityPolicy) (o : Operation) : List Violation :=
  match OperationKind.parse? o.kind with
  | none => [.unknownOperation o.kind]
  | some .selectMany =>
    match nameParameter? o "field" with
    | none => [.missingParameter OperationKind.selectMany.symbol "field"]
    | some field => violationUnless (e.isSelectable field) (e.notAllowed field .selection)
  | some .skip => countViolations p .skip o
  | some .take => countViolations p .take o
  | some .any => quantifiedViolations p e .any o
  | some .all => quantifiedViolations p e .all o
  | some _ => []

/-- The violations of the field that a function condenses. A blank field counts as none. -/
def condensedViolations (e : EntityPolicy) (function : AggregateFunction) (field : Option String) :
    List Violation :=
  match field.filter fun f => !Text.isBlankText f with
  | some field => violationUnless (e.isSelectable field) (e.notAllowed field .aggregation)
  | none => violationUnless (!function.requiresField) (.aggregateFieldRequired function.symbol)

/-- The violations of the aggregations, given the names of the columns before them. -/
def aggregationViolations (e : EntityPolicy) : List String → List Aggregation → List Violation
  | _, [] => []
  | columns, a :: rest =>
    match AggregateFunction.parse? a.function with
    | none => .unknownAggregate a.function :: aggregationViolations e columns rest
    | some function =>
      condensedViolations e function a.field
      ++ violationUnless (!columns.contains a.outputName) (.duplicateAlias a.outputName)
      ++ aggregationViolations e (a.outputName :: columns) rest

/-- The violations of the grouping. -/
def groupingViolations (p : Policy) (e : EntityPolicy) (q : Query) : List Violation :=
  let fields := (q.groupBy.map Grouping.fields).getD []
  let having := (q.groupBy.map Grouping.having).getD []
  fields.flatMap (fun f => violationUnless (e.isSelectable f) (e.notAllowed f .grouping))
  ++ violationUnless (!(fields.isEmpty && !having.isEmpty)) .havingWithoutGroupBy
  ++ violationUnless (!(fields.isEmpty && !q.aggregations.isEmpty)) .aggregationWithoutGroupBy
  ++ aggregationViolations e fields q.aggregations
  ++ if fields.isEmpty || having.isEmpty then []
     else p.filterViolations (.groups e fields q.outputNames) having

/-- The violations of a join. -/
def joinViolations (p : Policy) (e : EntityPolicy) (j : Join) : List Violation :=
  violationUnless (JoinKind.parse? j.kind).isSome (.unknownJoinType j.kind)
  ++ if Text.isBlankText j.entity then [.joinEntityRequired]
     else
      violationUnless (!j.on.isEmpty) (.joinOnRequired j.entity)
      ++ match p.entity? j.entity with
        | none => [.unknownJoinEntity j.entity]
        | some joined =>
          j.on.flatMap (fun (source, target) =>
            violationUnless (e.isFilterable source) (e.notAllowed source .filtering)
            ++ violationUnless (joined.isFilterable target) (joined.notAllowed target .filtering))
          ++ j.select.flatMap fun f =>
            violationUnless (joined.isSelectable f) (joined.notAllowed f .selection)

/-- The violations of a query on the entity, apart from its page request. -/
def violations (p : Policy) (e : EntityPolicy) (q : Query) : List Violation :=
  p.filterViolations (.entity e) q.filters
  ++ q.sort.flatMap (sortViolations e q)
  ++ q.select.flatMap (fun f => violationUnless (e.isSelectable f) (e.notAllowed f .selection))
  ++ q.operations.flatMap (operationViolations p e)
  ++ groupingViolations p e q
  ++ q.joins.flatMap (joinViolations p e)

end EntityPolicy

namespace Policy

/-- Everything that is wrong with a query. Without a configured entity only the page is looked at. -/
def violations (p : Policy) (q : Query) : List Violation :=
  if Text.isBlankText q.entity then .missingEntity :: p.pageViolations q
  else
    match p.entity? q.entity with
    | none => .unknownEntity q.entity :: p.pageViolations q
    | some e => p.pageViolations q ++ e.violations p q

/-- Whether the query may be answered. -/
def accepts (p : Policy) (q : Query) : Bool := (p.violations q).isEmpty

end Policy

/-- The messages of violations in one line. -/
def violationSummary (vs : List Violation) : String := "; ".intercalate (vs.map Violation.message)

end GuardedQuery
