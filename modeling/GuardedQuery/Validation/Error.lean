/-!
# Rule violations

Why a query is not accepted. Some violations are breaches of the policy's limits and permissions, and
count as security events; the others are mistakes in the shape of the query.
-/

namespace GuardedQuery

/-- What a field is used for. -/
inductive FieldPurpose where
  /-- A filter tests it. -/
  | filtering
  /-- Rows are sorted by it. -/
  | sorting
  /-- It is part of the answer. -/
  | selection
  /-- Rows are grouped by it. -/
  | grouping
  /-- An aggregation condenses it. -/
  | aggregation
deriving DecidableEq, Repr

/-- The name of a purpose in messages. -/
def FieldPurpose.name : FieldPurpose → String
  | filtering => "filtering"
  | sorting => "sorting"
  | selection => "selection"
  | grouping => "grouping"
  | aggregation => "aggregation"

/-- The part of a query whose field name is blank. -/
inductive FieldContext where
  /-- A filter condition. -/
  | filter
  /-- A sort key. -/
  | sort
deriving DecidableEq, Repr

/-- The name of a context in messages. -/
def FieldContext.name : FieldContext → String
  | filter => "Filter"
  | sort => "Sort"

/-- A rule that a query violates. -/
inductive Violation where
  /-- The query names no entity. -/
  | missingEntity
  /-- The entity is not configured. -/
  | unknownEntity (name : String)
  /-- A filter tree is too deep. -/
  | filterTooDeep (depth max : Nat)
  /-- A filter tree has too many nodes. -/
  | tooManyFilterNodes (count max : Nat)
  /-- A field name is blank. -/
  | emptyField (context : FieldContext)
  /-- The entity's policy does not allow the use of the field. -/
  | fieldNotAllowed (field entity : String) (purpose : FieldPurpose)
  /-- The operator is not known. -/
  | unknownOperator (operator field : String)
  /-- The entity's policy does not allow the operator for the field. -/
  | operatorNotAllowed (operator field entity : String)
  /-- The operator needs an operand. -/
  | valueRequired (operator field : String)
  /-- The operator takes no operand. -/
  | valueForbidden (operator field : String)
  /-- A group has no conditions. -/
  | emptyGroup
  /-- The logic of a group is not known. -/
  | unknownLogic (logic : String)
  /-- The direction of a sort key is not known. -/
  | invalidSortDirection (field direction : String)
  /-- The page size is out of range. -/
  | pageSizeOutOfRange (max : Nat) (got : Int)
  /-- The operation is not known. -/
  | unknownOperation (kind : String)
  /-- The operation lacks a parameter. -/
  | missingParameter (operation parameter : String)
  /-- The count of an operation is not a natural number. -/
  | invalidCount (operation value : String)
  /-- More rows are taken than a page may have. -/
  | takeExceedsMax (count max : Nat)
  /-- The predicate of an operation cannot be read. -/
  | invalidPredicate (operation reason : String)
  /-- Groups are filtered although there are none. -/
  | havingWithoutGroupBy
  /-- Groups are condensed although there are none. -/
  | aggregationWithoutGroupBy
  /-- The condition on groups tests a field that it may not test. -/
  | havingFieldNotAllowed (field : String)
  /-- The aggregate function is not known. -/
  | unknownAggregate (function : String)
  /-- The aggregate function needs a field. -/
  | aggregateFieldRequired (function : String)
  /-- Two output columns share a name. -/
  | duplicateAlias (name : String)
  /-- A join names no entity. -/
  | joinEntityRequired
  /-- A join has no field pair. -/
  | joinOnRequired (entity : String)
  /-- The kind of a join is not known. -/
  | unknownJoinType (kind : String)
  /-- The entity of a join is not configured. -/
  | unknownJoinEntity (name : String)
deriving DecidableEq, Repr

namespace Violation

/-- The message of a violation. -/
def message : Violation → String
  | missingEntity => "Entity is required"
  | unknownEntity name => s!"Unknown entity '{name}'"
  | filterTooDeep depth max => s!"Filter tree depth {depth} exceeds the maximum of {max}"
  | tooManyFilterNodes count max => s!"Filter tree has {count} nodes, exceeding the maximum of {max}"
  | emptyField context => s!"{context.name} field name must not be empty"
  | fieldNotAllowed field entity purpose => s!"Field '{field}' is not allowed for {purpose.name} on {entity}"
  | unknownOperator operator field => s!"Unsupported operator '{operator}' for field '{field}'"
  | operatorNotAllowed operator field entity =>
    s!"Operator '{operator}' is not allowed for field '{field}' on {entity}"
  | valueRequired operator field => s!"Operator '{operator}' requires a value for field '{field}'"
  | valueForbidden operator field => s!"Operator '{operator}' does not accept a value for field '{field}'"
  | emptyGroup => "Filter group must contain at least one condition"
  | unknownLogic logic => s!"Unknown logic '{logic}', expected 'and' or 'or'"
  | invalidSortDirection field direction =>
    s!"Invalid sort direction '{direction}' for field '{field}', expected 'asc' or 'desc'"
  | pageSizeOutOfRange max got => s!"Page size must be between 1 and {max}, got {got}"
  | unknownOperation kind => s!"Unknown operation type '{kind}'"
  | missingParameter operation parameter => s!"Operation '{operation}' requires parameter '{parameter}'"
  | invalidCount operation value =>
    s!"Operation '{operation}' requires a non-negative integer 'count', got {value}"
  | takeExceedsMax count max => s!"Take count must be at most {max}, got {count}"
  | invalidPredicate operation reason => s!"Operation '{operation}' has an invalid predicate: {reason}"
  | havingWithoutGroupBy => "Having requires at least one GroupBy field"
  | aggregationWithoutGroupBy => "Aggregations require at least one GroupBy field"
  | havingFieldNotAllowed field =>
    s!"Having field '{field}' must be a filterable GroupBy field or an aggregation alias"
  | unknownAggregate function => s!"Unknown aggregate function '{function}'"
  | aggregateFieldRequired function => s!"Aggregate function '{function}' requires a field"
  | duplicateAlias name => s!"Duplicate output column '{name}'"
  | joinEntityRequired => "Join entity is required"
  | joinOnRequired entity => s!"Join on '{entity}' requires at least one 'on' field pair"
  | unknownJoinType kind => s!"Unknown join type '{kind}', expected 'join' or 'groupjoin'"
  | unknownJoinEntity name => s!"Unknown join entity '{name}'"

/-- Whether the violation breaches a limit or a permission, and so counts as a security event. -/
def isGuardrail : Violation → Bool
  | unknownEntity _ => true
  | filterTooDeep .. => true
  | tooManyFilterNodes .. => true
  | fieldNotAllowed .. => true
  | operatorNotAllowed .. => true
  | pageSizeOutOfRange .. => true
  | takeExceedsMax .. => true
  | havingFieldNotAllowed _ => true
  | unknownJoinEntity _ => true
  | _ => false

end Violation

end GuardedQuery
