import GuardedQuery.Predicate.Basic
import GuardedQuery.Query.Error
import GuardedQuery.Query.Model
import GuardedQuery.Schema.Entity

/-!
# Compiling conditions

Conditions become predicates under the declared fields of an entity, of the objects in a collection, or of
the rows of a grouped query. Every leaf becomes one test, in the order of the tree, or the whole tree is
refused.

## Main definitions

* `Columns`: declared fields, with the name of what declares them.
* `Columns.compile`, `Columns.compileAll`: the predicate of a condition and of a list of conditions.
* `Columns.compileQuantified`: the predicate that quantifies conditions over a collection.
-/

namespace GuardedQuery

/-- Declared fields, with the name of what declares them. -/
structure Columns where
  /-- The name that messages use. -/
  scope : String
  /-- The fields. -/
  fields : Dict FieldType

namespace Columns

/-- The declared type of a field. -/
def fieldType (c : Columns) (field : String) : Except QueryError FieldType :=
  match Dict.get? c.fields field with
  | some t => .ok t
  | none => .error (.unknownField c.scope field)

/-- Reads an operand in a scalar type. -/
def operand (field : String) (t : ScalarType) (v : Value) : Except QueryError Scalar :=
  match Scalar.ofValue? t v with
  | some s => .ok s
  | none => .error (.invalidValue field (.one t))

/-- The test of a field of texts. -/
def compileText (field : String) (type : FieldType) (symbol : FilterOperator) (op : TextOp) (v : Value) :
    Except QueryError Predicate :=
  if type.isA .string then
    match v.asString? with
    | some s => .ok (.text field op s)
    | none => .error (.invalidValue field (.one .string))
  else .error (.invalidOperation (.textOperator symbol field type.name))

/-- The comparison of a field with one operand or, for the operator that is no comparison, with the items
of a list. -/
def compileComparison (field : String) (type : FieldType) (symbol : FilterOperator) (v : Value) :
    Except QueryError Predicate :=
  match type with
  | .scalar t =>
    match CompareOp.ofOperator? symbol with
    | some op => (operand field t v).map fun s => .compare field op s
    | none =>
      match v.asArray? with
      | some items => (items.mapM (operand field t)).map fun ss => .oneOf field ss
      | none => .error (.invalidValue field (.many t))
  | type => .error (.invalidOperation (.comparison symbol field type.name))

/-- The test of a field by an operator with an operand. -/
def compileTest (field : String) (type : FieldType) (symbol : FilterOperator) (v : Value) :
    Except QueryError Predicate :=
  match TextOp.ofOperator? symbol with
  | some op => compileText field type symbol op v
  | none => compileComparison field type symbol v

/-- The predicate of a leaf. -/
def compileLeaf (c : Columns) (field symbol : String) (v : Option Value) : Except QueryError Predicate := do
  let type ← c.fieldType field
  match FilterOperator.parse? symbol with
  | none => .error (.unsupportedOperator symbol)
  | some op =>
    if op.forbidsValue then .ok (.null field (op == .isNotNull))
    else
      match v with
      | none => .error (.invalidValue field .present)
      | some v => compileTest field type op v

mutual

/-- The predicate of a condition. -/
def compile (c : Columns) : Condition → Except QueryError Predicate
  | .leaf field symbol v => c.compileLeaf field symbol v
  | .group conditions logic =>
    match Logic.parse? logic with
    | none => .error (.unsupportedOperator (logic.getD ""))
    | some .and => (compileList c conditions).map .conjunction
    | some .or => (compileList c conditions).map .or

/-- The predicates of a list of conditions. -/
def compileList (c : Columns) : List Condition → Except QueryError (List Predicate)
  | [] => .ok []
  | condition :: rest => do
    let p ← compile c condition
    let ps ← compileList c rest
    .ok (p :: ps)

end

/-- The predicate that all conditions of a list hold. -/
def compileAll (c : Columns) (conditions : List Condition) : Except QueryError Predicate :=
  (c.compileList conditions).map .conjunction

/-- The declared fields of a collection's elements. -/
def elementColumns (c : Columns) (collection : String) : Except QueryError Columns := do
  let type ← c.fieldType collection
  match type.element?.bind FieldType.memberFields? with
  | some fields => .ok { scope := s!"{c.scope}.{collection}", fields }
  | none => .error (.invalidOperation (.noObjects collection c.scope))

/-- The predicate that all conditions hold of some element, or of every element, of a collection. -/
def compileQuantified (c : Columns) (universal : Bool) (collection : String) (conditions : List Condition) :
    Except QueryError Predicate := do
  let elements ← c.elementColumns collection
  let p ← elements.compileAll conditions
  .ok (if universal then .all collection p else .any collection p)

end Columns

/-- The declared fields of an entity. -/
def EntitySchema.columns (s : EntitySchema) : Columns := { scope := s.name, fields := s.fields }

end GuardedQuery
