import GuardedQuery.Json.Decode
import GuardedQuery.Query.Vocabulary
import GuardedQuery.Schema.FieldType
import GuardedQuery.Storage.Error

/-!
# Why a query has no answer

A query that passed validation can still be one that no answer fits: its operands may not have the type
of the field they are compared with, an operation may not apply to what it names, or the store may fail.
Nothing is skipped in such a case, since skipping a test would show more rows than were asked for.

## Main definitions

* `OperandShape`: what an operand was expected to be.
* `OperationFault`: why an operator or operation does not apply.
* `QueryError`: why a query has no answer, with its code and message.
-/

namespace GuardedQuery

/-- What an operand was expected to be. -/
inductive OperandShape where
  /-- Some value. -/
  | present
  /-- A value of a scalar type. -/
  | one (t : ScalarType)
  /-- A list of values of a scalar type. -/
  | many (t : ScalarType)
deriving DecidableEq, Repr

/-- The words for an operand's shape. -/
def OperandShape.text : OperandShape → String
  | present => "a value"
  | one t => t.name
  | many t => s!"array of {t.name}"

/-- Why an operator or an operation does not apply. -/
inductive OperationFault where
  /-- A text operator on a field that does not hold texts. -/
  | textOperator (op : FilterOperator) (field type : String)
  /-- A comparison on a field whose values have no order. -/
  | comparison (op : FilterOperator) (field type : String)
  /-- A quantifier over something else than a collection of objects. -/
  | noObjects (collection scope : String)
  /-- An unknown kind of join. -/
  | joinKind (kind : String)
  /-- An unknown sort direction. -/
  | direction (symbol : String)
  /-- A collection is to be unwound, but none is named. -/
  | noTarget
  /-- The field to be unwound is no collection. -/
  | noCollection (field type : String)
  /-- A count is missing or is no natural number. -/
  | count (kind : String)
  /-- A quantifier names no collection. -/
  | missingCollection (kind : OperationKind)
  /-- A quantifier has no conditions. -/
  | missingPredicate (kind : OperationKind)
  /-- The conditions of a quantifier are refused. -/
  | predicate (kind : OperationKind) (reason : String)
  /-- Groups are wanted without group fields. -/
  | noGrouping
  /-- An aggregate function lacks its field. -/
  | missingField (function : AggregateFunction)
  /-- An aggregate function on a field that it cannot condense. -/
  | aggregate (function : AggregateFunction) (field type : String)
  /-- A sum leaves the signed 64-bit integers. -/
  | sumOverflow (field : String)
deriving DecidableEq, Repr

/-- The words for a fault. -/
def OperationFault.text : OperationFault → String
  | textOperator op field type => s!"operator '{op.symbol}' requires a string field, '{field}' is {type}"
  | comparison op field type => s!"operator '{op.symbol}' cannot be applied to {type} field '{field}'"
  | noObjects collection scope => s!"'{collection}' on {scope} is not a collection of objects"
  | joinKind kind => s!"unknown join type '{kind}'"
  | direction symbol => s!"unknown sort direction '{symbol}'"
  | noTarget => "SelectMany requires a field"
  | noCollection field type => s!"SelectMany target '{field}' is {type}, not a collection"
  | count kind => s!"{kind} requires a non-negative integer count"
  | missingCollection kind => s!"{kind.symbol} requires a collection"
  | missingPredicate kind => s!"{kind.symbol} requires a predicate"
  | predicate kind reason => s!"{kind.symbol} predicate: {reason}"
  | noGrouping => "grouped execution without groupBy"
  | missingField function => s!"{function.symbol} requires a field"
  | aggregate function field type => s!"{function.symbol} cannot be applied to {type} field '{field}'"
  | sumOverflow field => s!"sum of '{field}' overflows int"

/-- Why a query has no answer. -/
inductive QueryError where
  /-- No entity has the name. -/
  | unknownEntity (entity : String)
  /-- Nothing says what rows of the entity look like in the wanted form. -/
  | missingProjection (entity target : String)
  /-- A symbol is in no vocabulary. -/
  | unsupportedOperator (symbol : String)
  /-- A field is not declared. -/
  | unknownField (entity field : String)
  /-- An operator or operation does not apply. -/
  | invalidOperation (fault : OperationFault)
  /-- An operand cannot be read. -/
  | invalidValue (field : String) (expected : OperandShape)
  /-- A sort field is not among the answer's columns. -/
  | sortNotProjected (field : String)
  /-- The store failed. -/
  | storage (error : StorageError)
  /-- The query was cancelled. -/
  | cancelled
  /-- A row of the answer does not have the wanted form. -/
  | materialization (fault : Fault)
deriving DecidableEq, Repr

namespace QueryError

/-- The code of an error. -/
def code : QueryError → String
  | unknownEntity _ => "AERO_QUERY_UNKNOWN_ENTITY"
  | missingProjection .. => "AERO_QUERY_MISSING_PROJECTION"
  | unsupportedOperator _ => "AERO_QUERY_UNSUPPORTED_OPERATOR"
  | unknownField .. => "AERO_QUERY_UNKNOWN_FIELD"
  | invalidOperation _ => "AERO_QUERY_INVALID_OPERATION"
  | invalidValue .. => "AERO_QUERY_INVALID_VALUE"
  | sortNotProjected _ => "AERO_QUERY_SORT_NOT_PROJECTED"
  | storage _ => "AERO_QUERY_STORAGE"
  | cancelled => "AERO_QUERY_CANCELLED"
  | materialization _ => "AERO_QUERY_MATERIALIZATION"

/-- The message of an error. -/
def message : QueryError → String
  | unknownEntity entity => s!"Unknown entity '{entity}'"
  | missingProjection entity target => s!"No projection registered from {entity} to {target}"
  | unsupportedOperator symbol => s!"Unsupported operator '{symbol}'"
  | unknownField entity field => s!"Unknown field '{field}' on {entity}"
  | invalidOperation fault => s!"Invalid operation: {fault.text}"
  | invalidValue field expected => s!"Invalid value for field '{field}': expected {expected.text}"
  | sortNotProjected field => s!"Sort field '{field}' is not part of the projection"
  | storage error => s!"Storage failure: {error.message}"
  | cancelled => "Query cancelled"
  | materialization fault => s!"Failed to materialize result: {fault.message}"

/-- What a failure of the store means for the query. -/
def ofStorage : StorageError → QueryError
  | .cancelled => cancelled
  | .unknownEntity entity => unknownEntity entity
  | e => storage e

end QueryError

end GuardedQuery
