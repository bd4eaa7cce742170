import GuardedQuery.Proofs.Evaluation
import GuardedQuery.Proofs.FilterTests
import GuardedQuery.Proofs.Groups

/-!
# Why queries have no answer

An inventory of all reasons for which a query can fail on a store in memory, each with what is wrong: a name that
the store does not declare, a symbol that no vocabulary has, an operand or a field of the wrong type. The inventory
covers every query, whether or not a policy accepts it.

## Main definitions

* `OperandShape.fits`: values that can be read in the expected shape.
* `Leaf.Fault`, `Condition.Fault`: what is wrong with a leaf, and with a filter tree, under declared fields.
* `Operation.Fault`, `Aggregation.Fault`, `Join.Fault`: what is wrong with the other parts of a query.
* `Query.Tests`: the filter trees of a query, with the declared fields under which they are compiled.
* `Query.Fault`: what is wrong with a query.

## Main statements

* `Query.failsOnly_result`: a query only fails for what is wrong with it.
* `Engine.fault_of_execute`: an engine fails to answer a query only for what is wrong with it.
* `Query.Tests.admissible`: the filter trees of an accepted query are admissible.
-/

namespace GuardedQuery

open Outcome

/-! ## Filters -/

/-- Whether a value can be read in the expected shape. -/
def OperandShape.fits : OperandShape → Value → Bool
  | present, _ => true
  | one t, v => (Scalar.ofValue? t v).isSome
  | many _, v => v.asArray?.isSome

/-- What is wrong with a leaf under declared fields. -/
inductive Leaf.Fault (c : Columns) (l : Leaf) : QueryError → Prop
  /-- The field is not declared. -/
  | undeclared : Dict.get? c.fields l.field = none → Fault c l (.unknownField c.scope l.field)
  /-- The operator is unknown. -/
  | operator : FilterOperator.parse? l.operator = none → Fault c l (.unsupportedOperator l.operator)
  /-- The operator takes an operand, and there is none. -/
  | absent {op : FilterOperator} : FilterOperator.parse? l.operator = some op → op.requiresValue = true →
      l.value = none → Fault c l (.invalidValue l.field .present)
  /-- The operand cannot be read in the type of the field. -/
  | operand {v : Value} {expected : OperandShape} : l.value = some v → expected.fits v = false →
      Fault c l (.invalidValue l.field expected)
  /-- A test of texts on a field that does not hold texts. -/
  | textOperator {op : FilterOperator} {type : FieldType} : FilterOperator.parse? l.operator = some op →
      op.isText = true → Dict.get? c.fields l.field = some type → type.isA .string = false →
      Fault c l (.invalidOperation (.textOperator op l.field type.name))
  /-- A comparison on a field whose values are not scalars. -/
  | comparison {op : FilterOperator} {type : FieldType} : FilterOperator.parse? l.operator = some op →
      op.isText = false → op.requiresValue = true → Dict.get? c.fields l.field = some type → type.isScalar = false →
      Fault c l (.invalidOperation (.comparison op l.field type.name))

/-- What is wrong with a filter tree under declared fields. -/
inductive Condition.Fault (c : Columns) : Condition → QueryError → Prop
  /-- Something is wrong with a leaf. -/
  | leaf {l : Leaf} {e : QueryError} : l.Fault c e → Fault c (.leaf l.field l.operator l.value) e
  /-- The logic of a group is unknown. -/
  | logic {conditions : List Condition} {logic : Option String} : Logic.parse? logic = none →
      Fault c (.group conditions logic) (.unsupportedOperator (logic.getD ""))
  /-- Something is wrong with a condition of a group. -/
  | child {conditions : List Condition} {logic : Option String} {condition : Condition} {e : QueryError} :
      condition ∈ conditions → Fault c condition e → Fault c (.group conditions logic) e

/-- What is wrong with a tree is wrong with one of its leaves, or it is the logic of a group. -/
theorem Condition.Fault.of_leaf_or_logic {c : Columns} {condition : Condition} {e : QueryError}
    (h : condition.Fault c e) :
    (∃ l ∈ condition.leaves, l.Fault c e) ∨ ∃ symbol, e = .unsupportedOperator symbol := by
  induction h with
  | @leaf l e hl => exact .inl ⟨l, by simp [leaves], hl⟩
  | logic => exact .inr ⟨_, rfl⟩
  | child hmem _ ih =>
    refine ih.imp_left ?_
    rintro ⟨l, hl, hfault⟩
    exact ⟨l, by rw [leaves]; exact mem_leavesList.mpr ⟨_, hmem, hl⟩, hfault⟩

/-- Only leaves can be wrong in an admissible tree. -/
theorem Condition.Admissible.exists_leaf_of_fault {g : Grant} {c : Columns} {condition : Condition} {e : QueryError}
    (hadmissible : condition.Admissible g) (h : condition.Fault c e) : ∃ l ∈ condition.leaves, l.Fault c e := by
  induction h with
  | @leaf l e hl => exact ⟨l, by simp [leaves], hl⟩
  | logic hlogic =>
    obtain _ | ⟨hknown, _, _⟩ := hadmissible
    simp [hlogic] at hknown
  | child hmem _ ih =>
    obtain _ | ⟨_, _, htrees⟩ := hadmissible
    obtain ⟨l, hl, hfault⟩ := ih (htrees _ hmem)
    exact ⟨l, by rw [leaves]; exact mem_leavesList.mpr ⟨_, hmem, hl⟩, hfault⟩

namespace Columns

variable {c : Columns}

theorem fieldType_eq_ok_iff {field : String} {type : FieldType} :
    c.fieldType field = .ok type ↔ Dict.get? c.fields field = some type := by
  rw [fieldType]
  cases Dict.get? c.fields field <;> simp

/-- Only arrays have element columns, and these are the members declared for their items. -/
theorem exists_array_of_elementColumns {collection : String} {elements : Columns}
    (h : c.elementColumns collection = .ok elements) :
    elements.scope = s!"{c.scope}.{collection}" ∧
      ∃ t, Dict.get? c.fields collection = some (.array t) ∧ t.memberFields? = some elements.fields := by
  obtain ⟨type, htype, h⟩ := Outcome.bind_eq_ok_iff.mp h
  rw [fieldType_eq_ok_iff] at htype
  split at h
  · rename_i fields hfields
    obtain rfl := Except.ok.inj h
    cases type with
    | array t => exact ⟨rfl, t, htype, by simpa [FieldType.element?] using hfields⟩
    | scalar _ | object _ => simp [FieldType.element?] at hfields
  · simp at h

theorem failsOnly_fieldType {P : QueryError → Prop} {field : String}
    (h : Dict.get? c.fields field = none → P (.unknownField c.scope field)) : FailsOnly P (c.fieldType field) := by
  rw [fieldType]
  cases hfield : Dict.get? c.fields field with
  | some type => exact .ok type
  | none => exact FailsOnly.error_iff.mpr (h hfield)

theorem failsOnly_operand {field : String} {t : ScalarType} {v : Value} :
    FailsOnly (fun e => e = .invalidValue field (.one t) ∧ Scalar.ofValue? t v = none) (operand field t v) := by
  rw [operand]
  cases hv : Scalar.ofValue? t v <;> simp

variable {l : Leaf} {v : Value} {op : FilterOperator} {type : FieldType}

theorem failsOnly_compileText (hv : l.value = some v) (hop : FilterOperator.parse? l.operator = some op)
    (htype : Dict.get? c.fields l.field = some type) {test : TextOp} (htest : TextOp.ofOperator? op = some test) :
    FailsOnly (l.Fault c) (compileText l.field type op test v) := by
  have htext : op.isText = true := by
    cases op <;> simp [TextOp.ofOperator?] at htest <;> rfl
  rw [compileText]
  split
  · cases hs : v.asString? with
    | some s => exact .ok _
    | none =>
      refine FailsOnly.error_iff.mpr (.operand hv ?_)
      cases v <;> simp [Value.asString?] at hs <;> rfl
  · rename_i hnot
    exact FailsOnly.error_iff.mpr (.textOperator hop htext htype (by simpa using hnot))

theorem failsOnly_compileComparison (hv : l.value = some v) (hop : FilterOperator.parse? l.operator = some op)
    (htype : Dict.get? c.fields l.field = some type) (htest : TextOp.ofOperator? op = none)
    (hneeds : op.requiresValue = true) : FailsOnly (l.Fault c) (compileComparison l.field type op v) := by
  have htext : op.isText = false := by
    cases op <;> simp [TextOp.ofOperator?] at htest <;> rfl
  cases type with
  | scalar t =>
    simp only [compileComparison]
    split
    · refine FailsOnly.map _ (failsOnly_operand.mono ?_)
      rintro _ ⟨rfl, hread⟩
      exact .operand hv (by simp [OperandShape.fits, hread])
    · cases hitems : v.asArray? with
      | none => exact FailsOnly.error_iff.mpr (.operand hv (by simp [OperandShape.fits, hitems]))
      | some items =>
        refine FailsOnly.map _ (FailsOnly.mapM fun item _ => failsOnly_operand.mono ?_)
        rintro _ ⟨rfl, _⟩
        -- A list is no scalar of any type.
        refine .operand hv ?_
        obtain rfl : v = .array items := by
          cases v <;> simp [Value.asArray?] at hitems
          rw [hitems]
        cases t <;> rfl
  | object _ | array _ => exact FailsOnly.error_iff.mpr (.comparison hop htext hneeds htype rfl)

/-- A leaf is only refused for what is wrong with it. -/
theorem failsOnly_compileOneLeaf (c : Columns) (l : Leaf) : FailsOnly (l.Fault c) (c.compileOneLeaf l) := by
  refine FailsOnly.bind (failsOnly_fieldType .undeclared) fun type htype => ?_
  rw [fieldType_eq_ok_iff] at htype
  cases hop : FilterOperator.parse? l.operator with
  | none => exact FailsOnly.error_iff.mpr (.operator hop)
  | some op =>
    dsimp only
    split
    · exact .ok _
    rename_i hforbids
    have hneeds : op.requiresValue = true := by simpa [FilterOperator.requiresValue] using hforbids
    cases hv : l.value with
    | none => exact FailsOnly.error_iff.mpr (.absent hop hneeds hv)
    | some v =>
      dsimp only [compileTest]
      cases htest : TextOp.ofOperator? op with
      | some test => exact failsOnly_compileText hv hop htype htest
      | none => exact failsOnly_compileComparison hv hop htype htest hneeds

mutual

/-- A filter tree is only refused for what is wrong with it. -/
theorem failsOnly_compile (c : Columns) (condition : Condition) :
    FailsOnly (condition.Fault c) (c.compile condition) := by
  cases condition with
  | leaf field symbol v =>
    exact (c.failsOnly_compileOneLeaf { field, operator := symbol, value := v }).mono fun _ => .leaf
  | group conditions logic =>
    have hlist : FailsOnly ((Condition.group conditions logic).Fault c) (c.compileList conditions) :=
      (c.failsOnly_compileList conditions).mono fun _ ⟨_, hmem, hfault⟩ => .child hmem hfault
    rw [compile]
    split
    · rename_i hlogic
      exact FailsOnly.error_iff.mpr (.logic hlogic)
    · exact hlist.map _
    · exact hlist.map _

/-- A list of filter trees is only refused for what is wrong with one of them. -/
theorem failsOnly_compileList (c : Columns) (conditions : List Condition) :
    FailsOnly (fun e => ∃ condition ∈ conditions, condition.Fault c e) (c.compileList conditions) := by
  cases conditions with
  | nil => exact .ok _
  | cons condition rest =>
    refine FailsOnly.bind ((c.failsOnly_compile condition).mono fun _ hfault => ⟨_, by simp, hfault⟩) fun p _ => ?_
    refine FailsOnly.bind ((c.failsOnly_compileList rest).mono ?_) fun ps _ => .ok _
    rintro e ⟨other, hmem, hfault⟩
    exact ⟨other, by simp [hmem], hfault⟩

end

/-- A conjunction of filter trees is only refused for what is wrong with one of them. -/
theorem failsOnly_compileAll (c : Columns) (conditions : List Condition) :
    FailsOnly (fun e => ∃ condition ∈ conditions, condition.Fault c e) (c.compileAll conditions) :=
  (c.failsOnly_compileList conditions).map _

end Columns

/-! ## Operations -/

namespace Operation

/-- A condition that an operation tests the elements of a collection by, with their declared fields. -/
def Tests (o : Operation) (schema : EntitySchema) (c : Columns) (condition : Condition) : Prop :=
  ∃ kind collection v conditions, OperationKind.parse? o.kind = some kind ∧ (kind = .any ∨ kind = .all) ∧
    o.textParameter? "collection" = some collection ∧ o.parameter? "predicate" = some v ∧
    Condition.ofPredicate v = .ok conditions ∧ condition ∈ conditions ∧
    schema.columns.elementColumns collection = .ok c

/-- What is wrong with an operation on records of an entity. -/
inductive Fault (schema : EntitySchema) (o : Operation) : QueryError → Prop
  /-- The kind is unknown. -/
  | kind : OperationKind.parse? o.kind = none → Fault schema o (.unsupportedOperator o.kind)
  /-- A number of rows is missing, or is no natural number. -/
  | count {kind : OperationKind} : OperationKind.parse? o.kind = some kind → kind = .skip ∨ kind = .take →
      (o.parameter? "count").bind Value.asUInt64? = none → Fault schema o (.invalidOperation (.count o.kind))
  /-- No field to be unwound is named. -/
  | noTarget : OperationKind.parse? o.kind = some .selectMany → o.textParameter? "field" = none →
      Fault schema o (.invalidOperation .noTarget)
  /-- The field to be unwound is not declared. -/
  | undeclared {field : String} : OperationKind.parse? o.kind = some .selectMany →
      o.textParameter? "field" = some field → schema.fieldType? field = none →
      Fault schema o (.unknownField schema.name field)
  /-- The field to be unwound is no collection. -/
  | noCollection {field : String} {type : FieldType} : OperationKind.parse? o.kind = some .selectMany →
      o.textParameter? "field" = some field → schema.fieldType? field = some type → type.element? = none →
      Fault schema o (.invalidOperation (.noCollection field type.name))
  /-- No collection is named. -/
  | missingCollection {kind : OperationKind} : OperationKind.parse? o.kind = some kind → kind = .any ∨ kind = .all →
      o.textParameter? "collection" = none → Fault schema o (.invalidOperation (.missingCollection kind))
  /-- There is no predicate. -/
  | missingPredicate {kind : OperationKind} : OperationKind.parse? o.kind = some kind → kind = .any ∨ kind = .all →
      o.parameter? "predicate" = none → Fault schema o (.invalidOperation (.missingPredicate kind))
  /-- The predicate cannot be read. -/
  | predicate {kind : OperationKind} {v : Value} {reason : String} : OperationKind.parse? o.kind = some kind →
      kind = .any ∨ kind = .all → o.parameter? "predicate" = some v → Condition.ofPredicate v = .error reason →
      Fault schema o (.invalidOperation (.predicate kind reason))
  /-- The collection is not declared. -/
  | unknownCollection {kind : OperationKind} {collection : String} : OperationKind.parse? o.kind = some kind →
      kind = .any ∨ kind = .all → o.textParameter? "collection" = some collection →
      schema.fieldType? collection = none → Fault schema o (.unknownField schema.name collection)
  /-- The collection has no objects. -/
  | noObjects {kind : OperationKind} {collection : String} {type : FieldType} :
      OperationKind.parse? o.kind = some kind → kind = .any ∨ kind = .all →
      o.textParameter? "collection" = some collection → schema.fieldType? collection = some type →
      type.element?.bind FieldType.memberFields? = none →
      Fault schema o (.invalidOperation (.noObjects collection schema.name))

variable {schema : EntitySchema} {o : Operation} {P : QueryError → Prop}

theorem failsOnly_kindOf (schema : EntitySchema) (o : Operation) : FailsOnly (o.Fault schema) o.kindOf := by
  rw [kindOf]
  split
  · exact .ok _
  · rename_i hkind
    exact FailsOnly.error_iff.mpr (.kind hkind)

theorem failsOnly_countOf {kind : OperationKind} (hkind : OperationKind.parse? o.kind = some kind)
    (hcounts : kind = .skip ∨ kind = .take) : FailsOnly (o.Fault schema) o.countOf := by
  rw [countOf]
  split
  · exact .ok _
  · rename_i hcount
    exact FailsOnly.error_iff.mpr (.count hkind hcounts hcount)

theorem failsOnly_unwoundField (hkind : OperationKind.parse? o.kind = some .selectMany) :
    FailsOnly (o.Fault schema) (o.unwoundField schema) := by
  rw [unwoundField]
  cases htext : o.textParameter? "field" with
  | none => exact FailsOnly.error_iff.mpr (.noTarget hkind htext)
  | some field =>
    dsimp only
    cases htype : schema.fieldType? field with
    | none => exact FailsOnly.error_iff.mpr (.undeclared hkind htext htype)
    | some type =>
      cases type with
      | array _ => exact .ok _
      | scalar _ | object _ => exact FailsOnly.error_iff.mpr (.noCollection hkind htext htype rfl)

theorem failsOnly_quantifier {kind : OperationKind} (hkind : OperationKind.parse? o.kind = some kind)
    (hquantifies : kind = .any ∨ kind = .all) (hfault : ∀ e, o.Fault schema e → P e)
    (htests : ∀ c condition e, o.Tests schema c condition → condition.Fault c e → P e) :
    FailsOnly P (o.quantifier kind schema) := by
  rw [quantifier]
  cases hcollection : o.textParameter? "collection" with
  | none => exact FailsOnly.error_iff.mpr (hfault _ (.missingCollection hkind hquantifies hcollection))
  | some collection =>
    cases hv : o.parameter? "predicate" with
    | none => exact FailsOnly.error_iff.mpr (hfault _ (.missingPredicate hkind hquantifies hv))
    | some v =>
      dsimp only
      cases hread : Condition.ofPredicate v with
      | error reason => exact FailsOnly.error_iff.mpr (hfault _ (.predicate hkind hquantifies hv hread))
      | ok conditions =>
        have helements : FailsOnly (o.Fault schema) (schema.columns.elementColumns collection) := by
          refine FailsOnly.bind (Columns.failsOnly_fieldType (.unknownCollection hkind hquantifies hcollection))
            fun type htype => ?_
          split
          · exact .ok _
          · rename_i hnone
            exact FailsOnly.error_iff.mpr
              (.noObjects hkind hquantifies hcollection (Columns.fieldType_eq_ok_iff.mp htype) hnone)
        refine (helements.mono hfault).bind fun c hc => ?_
        refine FailsOnly.bind ((c.failsOnly_compileAll conditions).mono ?_) fun _ _ => .ok _
        rintro e ⟨condition, hmem, hwrong⟩
        exact htests c condition e
          ⟨kind, collection, v, conditions, hkind, hquantifies, hcollection, hv, hread, hmem, hc⟩ hwrong

/-- An operation on records only fails for what is wrong with it, or with a condition that it tests elements by. -/
theorem failsOnly_onRecords (hfault : ∀ e, o.Fault schema e → P e)
    (htests : ∀ c condition e, o.Tests schema c condition → condition.Fault c e → P e) (maxTake : Nat)
    (rows : List Record) : FailsOnly P (o.onRecords schema maxTake rows) := by
  refine ((o.failsOnly_kindOf schema).mono hfault).bind fun kind hkind => ?_
  rw [kindOf_eq_ok_iff] at hkind
  cases kind with
  | selectMany => exact ((failsOnly_unwoundField hkind).mono hfault).bind fun _ _ => .ok _
  | skip => exact ((failsOnly_countOf hkind (.inl rfl)).mono hfault).bind fun _ _ => .ok _
  | take => exact ((failsOnly_countOf hkind (.inr rfl)).mono hfault).bind fun _ _ => .ok _
  | any => exact (failsOnly_quantifier hkind (.inl rfl) hfault htests).bind fun _ _ => .ok _
  | all => exact (failsOnly_quantifier hkind (.inr rfl) hfault htests).bind fun _ _ => .ok _
  | distinct | reverse | first | firstOrDefault | single | singleOrDefault => exact .ok _

variable {os : List Operation}

theorem failsOnly_onAllRecords (hfault : ∀ o ∈ os, ∀ e, o.Fault schema e → P e)
    (htests : ∀ o ∈ os, ∀ c condition e, o.Tests schema c condition → condition.Fault c e → P e) (maxTake : Nat)
    (rows : List Record) : FailsOnly P (onAllRecords schema maxTake os rows) := by
  induction os generalizing rows with
  | nil => exact .ok _
  | cons o rest ih =>
    obtain ⟨hfirst, hrest⟩ := List.forall_mem_cons.mp hfault
    obtain ⟨htest, htestRest⟩ := List.forall_mem_cons.mp htests
    exact (failsOnly_onRecords hfirst htest maxTake rows).bind fun _ _ => ih hrest htestRest _

theorem failsOnly_reverses (h : ∀ o ∈ os, ∀ e, o.Fault schema e → P e) : FailsOnly P (reverses os) := by
  induction os with
  | nil => exact .ok _
  | cons o rest ih =>
    obtain ⟨hfirst, hrest⟩ := List.forall_mem_cons.mp h
    exact ((o.failsOnly_kindOf schema).mono hfirst).bind fun _ _ => (ih hrest).bind fun _ _ => .ok _

theorem failsOnly_onAllRows {α : Type} (h : ∀ o ∈ os, ∀ e, o.Fault schema e → P e) (shape : α → Record)
    (rows : List α) : FailsOnly P (onAllRows shape os rows) := by
  induction os generalizing rows with
  | nil => exact .ok _
  | cons o rest ih =>
    obtain ⟨hfirst, hrest⟩ := List.forall_mem_cons.mp h
    have hrows : FailsOnly P (o.onRows shape rows) := by
      refine ((o.failsOnly_kindOf schema).mono hfirst).bind fun kind _ => ?_
      cases kind <;> exact .ok _
    exact hrows.bind fun _ _ => ih hrest _

end Operation

/-! ## Aggregations -/

/-- What is wrong with an aggregation of records of an entity. -/
inductive Aggregation.Fault (schema : EntitySchema) (a : Aggregation) : QueryError → Prop
  /-- The function is unknown. -/
  | function : AggregateFunction.parse? a.function = none → Fault schema a (.unsupportedOperator a.function)
  /-- The function condenses a field, and none is named. -/
  | missingField {function : AggregateFunction} : AggregateFunction.parse? a.function = some function →
      (a.field.filter fun f => !Text.isBlankText f) = none → function.requiresField = true →
      Fault schema a (.invalidOperation (.missingField function))
  /-- The field is not declared. -/
  | undeclared {field : String} : (a.field.filter fun f => !Text.isBlankText f) = some field →
      schema.fieldType? field = none → Fault schema a (.unknownField schema.name field)
  /-- The function cannot condense values of the field's type. -/
  | wrongType {function : AggregateFunction} {field : String} {type : FieldType} :
      AggregateFunction.parse? a.function = some function →
      (a.field.filter fun f => !Text.isBlankText f) = some field → schema.fieldType? field = some type →
      Column.applies function type = false →
      Fault schema a (.invalidOperation (.aggregate function field type.name))

/-- An aggregation sums integers of records, and a partial sum leaves the signed 64-bit integers. -/
structure Aggregation.Overflows (schema : EntitySchema) (a : Aggregation) (members : List Record) (field : String) :
    Prop where
  /-- The function is the sum. -/
  function : AggregateFunction.parse? a.function = some .sum
  /-- It sums the field. -/
  named : (a.field.filter fun f => !Text.isBlankText f) = some field
  /-- The field holds integers. -/
  type : schema.fieldType? field = some (.scalar .int)
  /-- The integers have no sum. -/
  sum : Column.sumInts? ((members.filterMap fun r => Predicate.actual? r field).filterMap Value.asInt64?) = none

namespace Column

/-- Resolving an aggregation only fails for what is wrong with it. -/
theorem failsOnly_resolve (schema : EntitySchema) (a : Aggregation) :
    FailsOnly (a.Fault schema) (resolve schema a) := by
  rw [resolve]
  cases hfunction : AggregateFunction.parse? a.function with
  | none => exact FailsOnly.error_iff.mpr (.function hfunction)
  | some function =>
    dsimp only
    cases hfield : a.field.filter fun f => !Text.isBlankText f with
    | none =>
      dsimp only
      split
      · rename_i hneeds
        exact FailsOnly.error_iff.mpr (.missingField hfunction hfield hneeds)
      · exact .ok _
    | some field =>
      dsimp only
      cases htype : schema.fieldType? field with
      | none => exact FailsOnly.error_iff.mpr (.undeclared hfield htype)
      | some type =>
        dsimp only
        split
        · exact .ok _
        · rename_i hnot
          exact FailsOnly.error_iff.mpr (.wrongType hfunction hfield htype (by simpa using hnot))

/-- Condensing records into a resolved column only fails if a sum overflows. -/
theorem failsOnly_compute {schema : EntitySchema} {a : Aggregation} {c : Column} (h : resolve schema a = .ok c)
    (members : List Record) :
    FailsOnly (fun e => ∃ field, a.Overflows schema members field ∧ e = .invalidOperation (.sumOverflow field))
      (c.compute members) := by
  obtain ⟨hfunction, hfield⟩ := resolve_names h
  obtain ⟨_, hcolumn⟩ := resolve_eq_ok h
  obtain ⟨function, field, output⟩ := c
  dsimp only at hfunction hfield hcolumn
  cases function with
  | sum =>
    have hsum : FailsOnly
        (fun e => ∃ field, a.Overflows schema members field ∧ e = .invalidOperation (.sumOverflow field))
        (Column.sum { function := .sum, field, output } members) := by
      rw [sum.eq_def]
      split
      · rename_i name hname
        obtain ⟨hcount, _⟩ | ⟨_, t, rfl, htype, _⟩ := hcolumn
        · exact nomatch hcount
        obtain ⟨rfl, rfl⟩ : _ = name ∧ t = .scalar .int := by simpa using hname
        split
        · exact .ok _
        · rename_i hsum
          exact FailsOnly.error_iff.mpr ⟨_, ⟨hfunction, hfield, htype, hsum⟩, rfl⟩
      · exact .ok _
    exact hsum
  | count | avg | min | max => exact .ok _

end Column

theorem Group.failsOnly_rows {P : QueryError → Prop} {columns : List Column} {groups : List Group}
    (h : ∀ g ∈ groups, ∀ c ∈ columns, FailsOnly P (c.compute g.members)) (fields : List String)
    (having : Predicate) : FailsOnly P (Group.rows fields columns having groups) := by
  induction groups with
  | nil => exact .ok _
  | cons g rest ih =>
    obtain ⟨hfirst, hrest⟩ := List.forall_mem_cons.mp h
    have hrow : FailsOnly P (g.row fields columns) := .foldlM (fun c hc _ => (hfirst c hc).map _) _
    exact hrow.bind fun _ _ => (ih hrest).bind fun _ _ => .ok _

/-! ## Joins -/

namespace Store

variable {s : Store} {P : QueryError → Prop} {entity : String}

theorem failsOnly_declaration (h : s.schema? entity = none → P (.unknownEntity entity)) :
    FailsOnly P (s.declaration entity) := by
  rw [declaration]
  cases hschema : s.schema? entity with
  | some schema => exact .ok _
  | none => exact FailsOnly.error_iff.mpr (h hschema)

/-- An entity is found again under the name that its declaration gives it, so reading its records does not fail. -/
theorem Sound.failsOnly_find (hs : s.Sound) {schema : EntitySchema} (h : s.schema? entity = some schema)
    (p : Predicate) : FailsOnly P (s.find schema.name p) := by
  obtain ⟨t, ht, rfl⟩ := Option.map_eq_some_iff.mp h
  rw [Store.find_of_table (hs.table?_name ht)]
  exact .ok _

end Store

/-- What is wrong with a join of an entity's records with records of a store. -/
inductive Join.Fault (s : Store) (root : EntitySchema) (j : Join) : QueryError → Prop
  /-- The kind is unknown. -/
  | kind : JoinKind.parse? j.kind = none → Fault s root j (.invalidOperation (.joinKind j.kind))
  /-- The joined entity is unknown. -/
  | entity : s.schema? j.entity = none → Fault s root j (.unknownEntity j.entity)
  /-- A field to be compared is not declared. -/
  | source {pair : String × String} : pair ∈ j.on → root.hasField pair.1 = false →
      Fault s root j (.unknownField root.name pair.1)
  /-- A field to be compared is not declared by the joined entity. -/
  | target {joined : EntitySchema} {pair : String × String} : s.schema? j.entity = some joined → pair ∈ j.on →
      joined.hasField pair.2 = false → Fault s root j (.unknownField joined.name pair.2)
  /-- A field to be attached is not declared by the joined entity. -/
  | select {joined : EntitySchema} {field : String} : s.schema? j.entity = some joined → field ∈ j.select →
      joined.hasField field = false → Fault s root j (.unknownField joined.name field)

namespace Join

variable {s : Store} {root : EntitySchema}

theorem failsOnly_kindOf (j : Join) : FailsOnly (j.Fault s root) j.kindOf := by
  rw [kindOf]
  split
  · exact .ok _
  · rename_i hkind
    exact FailsOnly.error_iff.mpr (.kind hkind)

theorem failsOnly_requireField {P : QueryError → Prop} {schema : EntitySchema} {field : String}
    (h : schema.hasField field = false → P (.unknownField schema.name field)) :
    FailsOnly P (requireField schema field) := by
  rw [requireField]
  split
  · exact .ok _
  · rename_i hundeclared
    exact FailsOnly.error_iff.mpr (h (by simpa using hundeclared))

/-- A join only fails for what is wrong with it. -/
theorem failsOnly_onStore (hs : s.Sound) (root : EntitySchema) (j : Join) (rows : List Record) (examined : Nat) :
    FailsOnly (j.Fault s root) (j.onStore s root rows examined) := by
  refine j.failsOnly_kindOf.bind fun kind _ => ?_
  refine (Store.failsOnly_declaration .entity).bind fun joined hjoined => ?_
  rw [Store.declaration_eq_ok_iff] at hjoined
  have hfields : FailsOnly (j.Fault s root) (j.requireFields root joined) := by
    refine FailsOnly.bind (.forM fun pair hpair => ?_) fun _ _ => .forM fun field hfield => ?_
    · exact (failsOnly_requireField (.source hpair)).bind fun _ _ => failsOnly_requireField (.target hjoined hpair)
    · exact failsOnly_requireField (.select hjoined hfield)
  exact hfields.bind fun _ _ => (hs.failsOnly_find hjoined .always).bind fun _ _ => .ok _

theorem failsOnly_allOnStore (hs : s.Sound) {P : QueryError → Prop} {joins : List Join}
    (h : ∀ j ∈ joins, ∀ e, j.Fault s root e → P e) (rows : List Record) (examined : Nat) :
    FailsOnly P (allOnStore s root joins rows examined) := by
  induction joins generalizing rows examined with
  | nil => exact .ok _
  | cons j rest ih =>
    obtain ⟨hfirst, hrest⟩ := List.forall_mem_cons.mp h
    exact ((failsOnly_onStore hs root j rows examined).mono hfirst).bind fun _ _ => ih hrest _ _

end Join

/-! ## Whole queries -/

namespace Query

/-- The columns of the rows of a grouped query: the group fields and the aggregations, with their types. -/
def GroupColumns (q : Query) (schema : EntitySchema) (c : Columns) : Prop :=
  ∃ fieldTypes columns, groupFieldTypes schema q.groupFields = .ok fieldTypes ∧
    q.aggregations.mapM (Column.resolve schema) = .ok columns ∧
    c = { scope := s!"{schema.name} groups"
          fields := Dict.ofList (fieldTypes ++ columns.map fun c => (c.output, c.type)) }

/-- A filter tree that a query tests rows, elements or groups by, with their declared fields. -/
inductive Tests (q : Query) (s : Store) : Columns → Condition → Prop
  /-- A filter. -/
  | filter {schema : EntitySchema} {condition : Condition} : s.schema? q.entity = some schema →
      condition ∈ q.filters → Tests q s schema.columns condition
  /-- A condition on the elements of a collection. -/
  | element {schema : EntitySchema} {o : Operation} {c : Columns} {condition : Condition} :
      s.schema? q.entity = some schema → o ∈ q.operations → o.Tests schema c condition → Tests q s c condition
  /-- A condition on groups. -/
  | having {schema : EntitySchema} {c : Columns} {condition : Condition} : s.schema? q.entity = some schema →
      q.GroupColumns schema c → condition ∈ q.groupConditions → Tests q s c condition

/-- The rows of a query after its operations on records. -/
def worked (q : Query) (policy : Policy) (s : Store) (schema : EntitySchema) : Except QueryError (List Record) := do
  let predicate ← schema.columns.compileAll q.filters
  let found ← s.find schema.name predicate
  let (rows, _) ← Join.allOnStore s schema q.joins found.records found.examined
  Operation.onAllRecords schema policy.maxPageSize q.operations rows

/-- What is wrong with a query on a store. -/
inductive Fault (q : Query) (policy : Policy) (s : Store) : QueryError → Prop
  /-- The entity is unknown. -/
  | entity : s.schema? q.entity = none → Fault q policy s (.unknownEntity q.entity)
  /-- Nothing is registered for rows of the entity. -/
  | projection {schema : EntitySchema} {label : String} : s.schema? q.entity = some schema →
      Fault q policy s (.missingProjection schema.name label)
  /-- Something is wrong with a filter tree. -/
  | condition {c : Columns} {condition : Condition} {e : QueryError} : q.Tests s c condition →
      condition.Fault c e → Fault q policy s e
  /-- Something is wrong with a join. -/
  | join {schema : EntitySchema} {j : Join} {e : QueryError} : s.schema? q.entity = some schema → j ∈ q.joins →
      j.Fault s schema e → Fault q policy s e
  /-- Something is wrong with an operation. -/
  | operation {schema : EntitySchema} {o : Operation} {e : QueryError} : s.schema? q.entity = some schema →
      o ∈ q.operations → o.Fault schema e → Fault q policy s e
  /-- A group field is not declared. -/
  | groupField {schema : EntitySchema} {field : String} : s.schema? q.entity = some schema →
      field ∈ q.groupFields → schema.fieldType? field = none → Fault q policy s (.unknownField schema.name field)
  /-- Something is wrong with an aggregation. -/
  | aggregation {schema : EntitySchema} {a : Aggregation} {e : QueryError} : s.schema? q.entity = some schema →
      a ∈ q.aggregations → a.Fault schema e → Fault q policy s e
  /-- A sum over the records of a group overflows. -/
  | overflow {schema : EntitySchema} {rows : List Record} {g : Group} {a : Aggregation} {field : String} :
      s.schema? q.entity = some schema → q.worked policy s schema = .ok rows →
      g ∈ Group.ofRecords q.groupFields rows → a ∈ q.aggregations → a.Overflows schema g.members field →
      Fault q policy s (.invalidOperation (.sumOverflow field))
  /-- A sort direction is unknown. -/
  | direction {item : SortItem} : item ∈ q.sort → Direction.parse? item.direction = none →
      Fault q policy s (.invalidOperation (.direction item.direction))
  /-- The answer has no column to sort by. -/
  | sort {field : String} : Fault q policy s (.sortNotProjected field)
  /-- A row of the answer does not have the wanted form. -/
  | materialization {fault : GuardedQuery.Fault} : Fault q policy s (.materialization fault)

variable {q : Query} {policy : Policy} {s : Store} {schema : EntitySchema}

theorem failsOnly_directionOf {item : SortItem} (hitem : item ∈ q.sort) :
    FailsOnly (q.Fault policy s) item.directionOf := by
  rw [SortItem.directionOf]
  split
  · exact .ok _
  · rename_i hnone
    exact FailsOnly.error_iff.mpr (.direction hitem hnone)

/-- Grouping only fails for what is wrong with the query. -/
theorem failsOnly_groupRows (hschema : s.schema? q.entity = some schema) (hgrouped : q.isGrouped = true)
    {records : List Record} (hworked : q.worked policy s schema = .ok records) :
    FailsOnly (q.Fault policy s) (q.groupRows schema records) := by
  rw [groupRows]
  split
  · rename_i hnone
    simp [isGrouped, hnone] at hgrouped
  rename_i g hg
  have hfields : q.groupFields = g.fields := by simp [groupFields, hg]
  have hconditions : q.groupConditions = g.having := by simp [groupConditions, hg]
  rw [← hfields, ← hconditions]
  have htypes : FailsOnly (q.Fault policy s) (groupFieldTypes schema q.groupFields) := by
    refine .mapM fun f hf => ?_
    cases htype : schema.fieldType? f with
    | some t => exact .ok _
    | none => exact FailsOnly.error_iff.mpr (.groupField hschema hf htype)
  refine htypes.bind fun fieldTypes hfieldTypes => ?_
  have hresolve : ∀ a ∈ q.aggregations, FailsOnly (q.Fault policy s) (Column.resolve schema a) := fun a ha =>
    (Column.failsOnly_resolve schema a).mono fun _ => .aggregation hschema ha
  refine (FailsOnly.mapM hresolve).bind fun columns hcolumns => ?_
  refine FailsOnly.bind ((Columns.failsOnly_compileAll _ _).mono ?_) fun having _ => ?_
  · rintro e ⟨condition, hmem, hfault⟩
    exact .condition (.having hschema ⟨fieldTypes, columns, hfieldTypes, hcolumns, rfl⟩ hmem) hfault
  refine FailsOnly.bind (Group.failsOnly_rows (fun g hg c hc => ?_) _ _) fun rows _ => ?_
  · obtain ⟨a, ha, hc⟩ := Outcome.exists_mem_of_mapM hcolumns hc
    refine (Column.failsOnly_compute hc g.members).mono ?_
    rintro _ ⟨field, hoverflows, rfl⟩
    exact .overflow hschema hworked hg ha hoverflows
  refine FailsOnly.bind ?_ fun keys _ => .ok _
  refine (FailsOnly.mapM fun item hitem => ?_).bind fun keys _ => .ok _
  rw [groupKey]
  split
  · exact (failsOnly_directionOf hitem).bind fun _ _ => .ok _
  · exact FailsOnly.error_iff.mpr .sort

/-- Making the sort keys only fails for an unknown direction, a field that is not bound, or an unknown entity. -/
theorem failsOnly_recordKeys_of {P : QueryError → Prop} {lookUp : String → Option EntitySchema} {b : Binding}
    (hdirection : ∀ item ∈ q.sort, FailsOnly P item.directionOf)
    (hunbound : ∀ field, b.targetOf? field = none → P (.sortNotProjected field))
    (hentity : ∀ j ∈ q.joins, lookUp j.entity = none → P (.unknownEntity j.entity)) :
    FailsOnly P (q.recordKeys lookUp schema b) := by
  have hkeys : FailsOnly P (q.sort.mapM (recordKey schema b)) := by
    refine .mapM fun item hitem => (hdirection item hitem).bind fun _ _ => ?_
    split
    · rename_i hnone
      exact FailsOnly.error_iff.mpr (hunbound _ (Option.isNone_iff_eq_none.mp hnone))
    · exact .ok _
  refine hkeys.bind fun keys _ => ?_
  split
  · rename_i hnone
    exact FailsOnly.error_iff.mpr (hunbound _ (Option.isNone_iff_eq_none.mp hnone))
  refine .foldlM (fun j hj keys => ?_) _
  rw [withJoinedIdentity]
  split
  · split
    · exact .ok _
    · rename_i hnone
      exact FailsOnly.error_iff.mpr (hentity j hj hnone)
  · exact .ok _

theorem failsOnly_recordKeys (hschema : s.schema? q.entity = some schema) (b : Binding) :
    FailsOnly (q.Fault policy s) (q.recordKeys s.schema? schema b) :=
  failsOnly_recordKeys_of (fun _ => failsOnly_directionOf) (fun _ _ => .sort) fun _ hj hnone =>
    .join hschema hj (.entity hnone)

/-- Before the sort, a query only fails for what is wrong with it. -/
theorem failsOnly_stock (hs : s.Sound) (q : Query) (policy : Policy) (registry : Registry) (label : String) :
    FailsOnly (q.Fault policy s) (q.stock policy s registry label) := by
  refine (Store.failsOnly_declaration .entity).bind fun schema hdeclared => ?_
  have hschema := Store.declaration_eq_ok_iff.mp hdeclared
  have hoperations : ∀ o ∈ q.operations, ∀ e, o.Fault schema e → q.Fault policy s e :=
    fun _ ho _ => .operation hschema ho
  have hbinding : FailsOnly (q.Fault policy s) (q.bindingFor registry label schema) := by
    rw [bindingFor]
    split
    · exact .ok _
    · split
      · exact .ok _
      · exact FailsOnly.error_iff.mpr (.projection hschema)
  refine hbinding.bind fun binding hbinding => ?_
  refine FailsOnly.bind ((schema.columns.failsOnly_compileAll q.filters).mono ?_) fun predicate hpredicate => ?_
  · rintro e ⟨condition, hmem, hfault⟩
    exact .condition (.filter hschema hmem) hfault
  refine (hs.failsOnly_find hschema predicate).bind fun found hfound => ?_
  refine (Join.failsOnly_allOnStore hs (fun _ hj _ => .join hschema hj) _ _).bind fun joined hjoined => ?_
  have htests : ∀ o ∈ q.operations, ∀ c condition e, o.Tests schema c condition → condition.Fault c e →
      q.Fault policy s e := fun _ ho _ _ _ htest => .condition (.element hschema ho htest)
  refine (Operation.failsOnly_onAllRecords hoperations htests _ _).bind fun rows hrows => ?_
  have hworked : q.worked policy s schema = .ok rows := by
    refine Outcome.bind_eq_ok_iff.mpr ⟨predicate, hpredicate, ?_⟩
    refine Outcome.bind_eq_ok_iff.mpr ⟨found, hfound, ?_⟩
    exact Outcome.bind_eq_ok_iff.mpr ⟨joined, hjoined, hrows⟩
  have hsorting : FailsOnly (q.Fault policy s) (q.sorting s.schema? schema binding rows) := by
    refine (Operation.failsOnly_reverses hoperations).bind fun reversed _ => ?_
    obtain ⟨hgrouped, rfl⟩ | ⟨_, hsome, _⟩ := bindingFor_eq_ok_iff.mp hbinding
    · exact (failsOnly_groupRows hschema hgrouped hworked).bind fun _ _ => .ok _
    · obtain ⟨b, rfl⟩ := Option.isSome_iff_exists.mp hsome
      exact (failsOnly_recordKeys hschema b).bind fun _ _ => .ok _
  exact hsorting.bind fun _ _ => .ok _

/-- **A query whose sort does not give up only fails for what is wrong with it.** -/
theorem failsOnly_result {α : Type} (hs : s.Sound) (q : Query) (policy : Policy) (registry : Registry)
    (target : Target α) (hsorts : ¬q.Upset policy s registry target.label) :
    FailsOnly (q.Fault policy s) (q.result policy s registry target) := by
  have hfindings : FailsOnly (q.Fault policy s) (q.findings policy s registry target.label) := by
    refine (failsOnly_stock hs q policy registry target.label).bind fun st hst => ?_
    have hsorted : FailsOnly (q.Fault policy s) st.sorted := by
      rw [Stock.sorted]
      cases hsort : SortKey.sort? st.keys st.rows with
      | none => exact absurd ⟨st, hst, hsort⟩ hsorts
      | some sorted => exact .ok _
    have hschema := Store.declaration_eq_ok_iff.mp (declaration_of_stock hst)
    have hoperations : ∀ o ∈ q.operations, ∀ e, o.Fault st.schema e → q.Fault policy s e :=
      fun _ ho _ => .operation hschema ho
    refine hsorted.bind fun sorted _ => ?_
    exact (Operation.failsOnly_onAllRows hoperations _ _).bind fun _ _ => .ok _
  refine hfindings.bind fun f _ => ?_
  refine FailsOnly.bind (.mapM fun row _ => ?_) fun _ _ => .ok _
  rw [item.eq_def]
  dsimp only
  cases target.materialize _ with
  | ok a => exact .ok _
  | error fault => exact FailsOnly.error_iff.mpr .materialization

end Query

/-- **An engine fails to answer a query only for what is wrong with it.** -/
theorem Engine.fault_of_execute {α : Type} {e : Engine Store} (hs : e.store.Sound) {target : Target α} {q : Query}
    {c : Circumstances} {error : QueryError} (h : (e.execute target q false c).1 = .error (.query error)) :
    q.Fault e.policy e.store error := by
  obtain ⟨_, hsorts, hresult⟩ := execute_eq_query_error_iff.mp h
  exact Query.failsOnly_result hs q e.policy e.registry target hsorts _ hresult

/-! ## Filter trees of accepted queries -/

/-- The conditions of an admissible quantifier are within the limits, and test listed members of its collection. -/
theorem Operation.Admissible.element_admitted {p : Policy} {e : EntityPolicy} {o : Operation} (h : o.Admissible p e)
    {kind : OperationKind} (hkind : OperationKind.parse? o.kind = some kind) (hq : kind = .any ∨ kind = .all)
    {collection : String} (hcollection : o.textParameter? "collection" = some collection) {v : Value}
    (hv : o.parameter? "predicate" = some v) {conditions : List Condition}
    (hread : Condition.ofPredicate v = .ok conditions) :
    p.AdmitsFilters (e.collectionGrant collection) conditions := by
  cases h with
  | quantified _ _ hcollection' _ _ hv' hread' _ hadmits =>
    obtain rfl := Option.some.inj (hcollection.symm.trans hcollection')
    obtain rfl := Option.some.inj (hv.symm.trans hv')
    obtain rfl := Except.ok.inj (hread.symm.trans hread')
    exact hadmits
  | selectMany hkind' | skip hkind' | take hkind' =>
    obtain rfl := Option.some.inj (hkind.symm.trans hkind')
    simp at hq
  | plain hkind' hmem =>
    obtain rfl := Option.some.inj (hkind.symm.trans hkind')
    rcases hq with rfl | rfl <;> simp at hmem

/-- The filter trees of an accepted query are admissible. -/
theorem Query.Tests.admissible {p : Policy} {q : Query} {s : Store} {c : Columns} {condition : Condition}
    (h : q.Tests s c condition) (haccepts : p.accepts q = true) : ∃ g, condition.Admissible g := by
  obtain ⟨_, e, _, hadmissible⟩ := Policy.admissibleOn_of_accepts haccepts
  cases h with
  | filter _ hmem => exact ⟨_, hadmissible.filters.trees condition hmem⟩
  | element _ ho htest =>
    obtain ⟨_, _, _, _, hkind, hq, hcollection, hv, hread, hmem, _⟩ := htest
    have hadmits := (hadmissible.operations _ ho).element_admitted hkind hq hcollection hv hread
    exact ⟨_, hadmits.trees condition hmem⟩
  | having _ _ hmem => exact ⟨_, hadmissible.grouping.having.trees condition hmem⟩

end GuardedQuery
