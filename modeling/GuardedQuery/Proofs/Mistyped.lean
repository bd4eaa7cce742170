import GuardedQuery.Proofs.Failures
import GuardedQuery.Proofs.Loading
import GuardedQuery.Proofs.Policies

/-!
# Accepted queries fail on types

The validator reads every symbol and every parameter of a query, and answering the query reads them again. What the
validator accepts can be read the second time, so an accepted query does not fail for its vocabulary: the fields that
it names may have the wrong type, or an operand may not fit the type of its field. A query that is read from a text
has no `null` for an operand, so an operand that does not fit is a value.

## Main definitions

* `Condition.NullFree`: filter trees without `null` for an operand.
* `Query.Mistyped`: the faults of operations that a query on fields of the wrong types has.

## Main statements

* `Query.nullFree_of_tests`: queries that are read from texts test nothing by `null`.
* `Query.Fault.mistyped`: what is wrong with an operation of an accepted query is a type.
* `Engine.accepted_fail_on_types`: accepted queries that are read from texts fail on types, never on vocabulary.
-/

namespace GuardedQuery

/-! ## Operands that are read -/

namespace Decoder

/-- An optional value that is read is not `null`. -/
theorem ne_null_of_option_value {n : Node} {v : Option Value} (h : Decoder.option value n = .ok v) :
    v ≠ some .null := by
  rintro rfl
  cases n with
  | null => simp [Decoder.option] at h
  | unreadable | cut => simp [Decoder.option, value, Node.toValue?, Except.map] at h
  | bool _ | int _ | float _ | string _ => simp [Decoder.option, value, Node.toValue?, Except.map] at h
  | array items =>
    simp only [Decoder.option, value, Node.toValue?] at h
    cases hitems : Node.itemValues? items <;> simp [hitems, Except.map] at h
  | object ms =>
    simp only [Decoder.option, value, Node.toValue?] at h
    cases hmembers : Node.memberValues? ms <;> simp [hmembers, Except.map] at h

variable {α : Type} {item : Decoder α} {P : α → Prop} {n : Node}

/-- What holds of all items that are read holds of the items of a list. -/
theorem forall_of_list (hitem : ∀ n a, item n = .ok a → P a) {as : List α} (h : list item n = .ok as) :
    ∀ a ∈ as, P a := by
  cases n with
  | array items =>
    intro a ha
    obtain ⟨m, _, hm⟩ := Outcome.exists_mem_of_mapM h ha
    exact hitem m a hm
  | _ => simp [list] at h

/-- What holds of every value that is read holds of an optional one. -/
theorem forall_of_option (hitem : ∀ n a, item n = .ok a → P a) {o : Option α} (h : Decoder.option item n = .ok o) :
    ∀ a, o = some a → P a := by
  rintro a rfl
  exact hitem n a (of_option h)

end Decoder

namespace Condition

/-- No leaf has the operand `null`. -/
def NullFree (c : Condition) : Prop := ∀ l ∈ c.leaves, l.value ≠ some .null

theorem nullFree_leaf {field operator : String} {value : Option Value} (h : value ≠ some .null) :
    (leaf field operator value).NullFree := by
  intro l hl
  obtain rfl : l = _ := by simpa [leaves] using hl
  exact h

theorem nullFree_group {conditions : List Condition} {logic : Option String} (h : ∀ c ∈ conditions, c.NullFree) :
    (group conditions logic).NullFree := by
  intro l hl
  rw [leaves] at hl
  obtain ⟨c, hc, hl⟩ := mem_leavesList.mp hl
  exact h c hc l hl

/-- A filter tree that is read tests nothing by `null`, since `null` is read as no operand. -/
theorem nullFree_read {levels : Nat} {n : Node} {c : Condition} (h : read levels n = .ok c) : c.NullFree := by
  induction levels generalizing n c with
  | zero => simp [read] at h
  | succ levels ih =>
    obtain ⟨parts, hparts, hnode⟩ := Outcome.bind_eq_ok_iff.mp h
    -- The operand and the nested conditions are the only parts that matter, and only their fields fill them.
    have hfree : parts.value ≠ some .null ∧ ∀ cs, parts.conditions = some cs → ∀ c ∈ cs, c.NullFree := by
      refine Decoder.ofFields_invariant (P := fun parts : Parts =>
        parts.value ≠ some .null ∧ ∀ cs, parts.conditions = some cs → ∀ c ∈ cs, c.NullFree) ?_ (by simp) hparts
      simp only [documentFields, List.forall_mem_cons]
      refine ⟨?_, ?_, ?_, ?_, ?_, List.forall_mem_nil _⟩
      · exact Field.optional_invariant fun _ _ _ _ h => h
      · exact Field.optional_invariant fun _ _ _ _ h => h
      · exact Field.optional_invariant fun _ _ _ hv h => ⟨Decoder.ne_null_of_option_value hv, h.2⟩
      · refine Field.optional_invariant fun _ _ _ hv h => ⟨h.1, ?_⟩
        exact Decoder.forall_of_option (fun _ _ hcs => Decoder.forall_of_list (fun _ _ hc => ih hc) hcs) hv
      · exact Field.optional_invariant fun _ _ _ _ h => h
    rw [ofParts] at hnode
    split at hnode
    · exact Except.ok.inj hnode ▸ nullFree_leaf hfree.1
    · rename_i cs hcs
      split at hnode
      · simp at hnode
      · exact Except.ok.inj hnode ▸ nullFree_group (hfree.2 cs hcs)

theorem nullFree_decoder (n : Node) (c : Condition) (h : decoder n = .ok c) : c.NullFree := nullFree_read h

/-- The conditions of a quantified predicate test nothing by `null`. -/
theorem nullFree_ofPredicate {v : Value} {conditions : List Condition} (h : ofPredicate v = .ok conditions) :
    ∀ c ∈ conditions, c.NullFree := by
  rw [ofPredicate.eq_def] at h
  split at h
  · split at h
    · rename_i c hc
      obtain rfl := Except.ok.inj h
      exact List.forall_mem_singleton.mpr (nullFree_decoder _ c hc)
    · simp at h
  · split at h
    · simp at h
    · rename_i items _ cs _ hcs
      obtain rfl := Except.ok.inj h
      have hlist : Decoder.list decoder (Node.ofValue (.array items)) = .ok cs := hcs
      exact Decoder.forall_of_list nullFree_decoder hlist
    · simp at h
  · simp at h

end Condition

/-- The conditions on groups of a grouping that is read test nothing by `null`. -/
theorem Grouping.nullFree_decoder (n : Node) (g : Grouping) (h : decoder n = .ok g) : ∀ c ∈ g.having, c.NullFree := by
  refine Decoder.ofFields_invariant (P := fun g : Grouping => ∀ c ∈ g.having, c.NullFree) ?_ (by simp) h
  simp only [List.forall_mem_cons]
  refine ⟨?_, ?_, List.forall_mem_nil _⟩
  · exact Field.optional_invariant fun _ _ _ _ h => h
  · exact Field.optional_invariant fun _ _ _ hv _ => Decoder.forall_of_list Condition.nullFree_decoder hv

namespace Query

variable {text : String} {q : Query}

/-- The filters of a query that is read, and the conditions of its grouping, test nothing by `null`. -/
theorem nullFree_decoder {n : Node} (h : decoder n = .ok q) :
    (∀ c ∈ q.filters, c.NullFree) ∧ ∀ g, q.groupBy = some g → ∀ c ∈ g.having, c.NullFree := by
  refine Decoder.ofFields_invariant (P := fun q : Query =>
    (∀ c ∈ q.filters, c.NullFree) ∧ ∀ g, q.groupBy = some g → ∀ c ∈ g.having, c.NullFree) ?_ (by simp) h
  simp only [List.forall_mem_cons]
  refine ⟨?_, ?filters, ?_, ?_, ?_, ?_, ?groupBy, ?_, ?_, ?_, List.forall_mem_nil _⟩
  case filters =>
    exact Field.optional_invariant fun _ _ _ hv h => ⟨Decoder.forall_of_list Condition.nullFree_decoder hv, h.2⟩
  case groupBy =>
    exact Field.optional_invariant fun _ _ _ hv h => ⟨h.1, Decoder.forall_of_option Grouping.nullFree_decoder hv⟩
  all_goals exact Field.optional_invariant fun _ _ _ _ h => h

/-- The filters of a query that is read from a text, and its conditions on groups, test nothing by `null`. -/
theorem nullFree_ofText (h : ofText text = .ok q) :
    (∀ c ∈ q.filters, c.NullFree) ∧ ∀ c ∈ q.groupConditions, c.NullFree := by
  obtain ⟨read, hread, hended⟩ := Outcome.bind_eq_ok_iff.mp h
  have hfree := nullFree_decoder hread
  split at hended
  · obtain rfl := Except.ok.inj hended
    refine ⟨hfree.1, ?_⟩
    rw [groupConditions]
    cases hg : read.groupBy with
    | none => simp
    | some g => exact hfree.2 g hg
  · simp at hended

/-- **A query that is read from a text tests nothing by `null`.** -/
theorem nullFree_of_tests (hread : ofText text = .ok q) {s : Store} {c : Columns} {condition : Condition}
    (h : q.Tests s c condition) : condition.NullFree := by
  cases h with
  | filter _ hmem => exact (nullFree_ofText hread).1 condition hmem
  | element _ _ htest =>
    obtain ⟨_, _, _, _, _, _, _, _, hconditions, hmem, _⟩ := htest
    exact Condition.nullFree_ofPredicate hconditions condition hmem
  | having _ _ hmem => exact (nullFree_ofText hread).2 condition hmem

end Query

/-! ## What can be wrong with an accepted query -/

/-- What is wrong with an admissible operation is that the field it names is not declared, or is no collection, or is
none of objects. -/
theorem Operation.Admissible.wrong_field {p : Policy} {e : EntityPolicy} {o : Operation} {schema : EntitySchema}
    {error : QueryError} (hadmissible : o.Admissible p e) (h : o.Fault schema error) :
    (∃ field, error = .unknownField schema.name field) ∨
    (∃ field type, OperationKind.parse? o.kind = some .selectMany ∧ o.textParameter? "field" = some field ∧
      schema.fieldType? field = some type ∧ type.element? = none ∧
      error = .invalidOperation (.noCollection field type.name)) ∨
    ∃ kind collection type, OperationKind.parse? o.kind = some kind ∧ (kind = .any ∨ kind = .all) ∧
      o.textParameter? "collection" = some collection ∧ schema.fieldType? collection = some type ∧
      type.element?.bind FieldType.memberFields? = none ∧
      error = .invalidOperation (.noObjects collection schema.name) := by
  cases h with
  | undeclared | unknownCollection => exact .inl ⟨_, rfl⟩
  | noCollection hkind htext htype hnone => exact .inr (.inl ⟨_, _, hkind, htext, htype, hnone, rfl⟩)
  | noObjects hkind hq hcollection htype hnone =>
    exact .inr (.inr ⟨_, _, _, hkind, hq, hcollection, htype, hnone, rfl⟩)
  -- The symbols and parameters that are left were read by the validator.
  | kind hkind => cases hadmissible <;> simp_all
  | count hkind hcounts hcount => rcases hcounts with rfl | rfl <;> cases hadmissible <;> simp_all [Value.asUInt64?]
  | noTarget hkind hnone => cases hadmissible <;> simp_all
  | missingCollection hkind hq hnone => rcases hq with rfl | rfl <;> cases hadmissible <;> simp_all
  | missingPredicate hkind hq hnone => rcases hq with rfl | rfl <;> cases hadmissible <;> simp_all
  | predicate hkind hq hv hread => rcases hq with rfl | rfl <;> cases hadmissible <;> simp_all

namespace Query

/-- The faults of operations that a query on fields of the wrong types has, and the overflow of a sum. -/
inductive Mistyped (q : Query) (p : Policy) (s : Store) : OperationFault → Prop
  /-- A text operator on a field that does not hold texts. -/
  | textOperator {c : Columns} {condition : Condition} {l : Leaf} {op : FilterOperator} {type : FieldType} :
      q.Tests s c condition → l ∈ condition.leaves → FilterOperator.parse? l.operator = some op →
      op.isText = true → Dict.get? c.fields l.field = some type → type.isA .string = false →
      Mistyped q p s (.textOperator op l.field type.name)
  /-- A comparison on a field whose values are not scalars. -/
  | comparison {c : Columns} {condition : Condition} {l : Leaf} {op : FilterOperator} {type : FieldType} :
      q.Tests s c condition → l ∈ condition.leaves → FilterOperator.parse? l.operator = some op →
      op.isText = false → op.requiresValue = true → Dict.get? c.fields l.field = some type → type.isScalar = false →
      Mistyped q p s (.comparison op l.field type.name)
  /-- A quantifier over a field that is no collection of objects. -/
  | noObjects {schema : EntitySchema} {o : Operation} {kind : OperationKind} {collection : String} {type : FieldType} :
      s.schema? q.entity = some schema → o ∈ q.operations → OperationKind.parse? o.kind = some kind →
      kind = .any ∨ kind = .all → o.textParameter? "collection" = some collection →
      schema.fieldType? collection = some type → type.element?.bind FieldType.memberFields? = none →
      Mistyped q p s (.noObjects collection schema.name)
  /-- A field that is no collection is unwound. -/
  | noCollection {schema : EntitySchema} {o : Operation} {field : String} {type : FieldType} :
      s.schema? q.entity = some schema → o ∈ q.operations → OperationKind.parse? o.kind = some .selectMany →
      o.textParameter? "field" = some field → schema.fieldType? field = some type → type.element? = none →
      Mistyped q p s (.noCollection field type.name)
  /-- An aggregate function of a field whose values it cannot condense. -/
  | aggregate {schema : EntitySchema} {a : Aggregation} {function : AggregateFunction} {field : String}
      {type : FieldType} : s.schema? q.entity = some schema → a ∈ q.aggregations →
      AggregateFunction.parse? a.function = some function → a.field = some field →
      schema.fieldType? field = some type → Column.applies function type = false →
      Mistyped q p s (.aggregate function field type.name)
  /-- The sum of a group's integers leaves the signed 64-bit integers. -/
  | sumOverflow {schema : EntitySchema} {rows : List Record} {g : Group} {a : Aggregation} {field : String} :
      s.schema? q.entity = some schema → q.worked p s schema = .ok rows → g ∈ Group.ofRecords q.groupFields rows →
      a ∈ q.aggregations → a.Overflows schema g.members field → Mistyped q p s (.sumOverflow field)

variable {q : Query} {p : Policy} {s : Store}

/-- **An accepted query does not fail for a symbol.** -/
theorem Fault.ne_unsupportedOperator (haccepts : p.accepts q = true) {symbol : String} :
    ¬q.Fault p s (.unsupportedOperator symbol) := by
  obtain ⟨_, e, _, hadmissible⟩ := Policy.admissibleOn_of_accepts haccepts
  intro h
  cases h with
  | condition htests hfault =>
    obtain ⟨g, hg⟩ := htests.admissible haccepts
    obtain ⟨l, hl, hlfault⟩ := hg.exists_leaf_of_fault hfault
    obtain ⟨_, _, hop, _⟩ | _ := hg.of_mem_leaves hl
    cases hlfault with
    | operator hnone => simp [hop] at hnone
  | join _ _ hfault => exact nomatch hfault
  | operation _ ho hfault =>
    obtain ⟨_, h⟩ | ⟨_, _, _, _, _, _, h⟩ | ⟨_, _, _, _, _, _, _, _, h⟩ :=
      (hadmissible.operations _ ho).wrong_field hfault <;> exact nomatch h
  | aggregation _ ha hfault =>
    cases hfault with
    | function hnone =>
      obtain ⟨hknown, _⟩ | ⟨hknown, _⟩ := hadmissible.grouping.aggregations _ ha <;> simp [hknown] at hnone

/-- **What is wrong with an operation of an accepted query is a type**, or a sum overflows. -/
theorem Fault.mistyped (haccepts : p.accepts q = true) {fault : OperationFault}
    (h : q.Fault p s (.invalidOperation fault)) : q.Mistyped p s fault := by
  obtain ⟨_, e, _, hadmissible⟩ := Policy.admissibleOn_of_accepts haccepts
  cases h with
  | condition htests hfault =>
    obtain ⟨g, hg⟩ := htests.admissible haccepts
    obtain ⟨l, hl, hlfault⟩ := hg.exists_leaf_of_fault hfault
    cases hlfault with
    | textOperator hop htext htype hnot => exact .textOperator htests hl hop htext htype hnot
    | comparison hop htext hneeds htype hnot => exact .comparison htests hl hop htext hneeds htype hnot
  | join _ hj hfault =>
    cases hfault with
    | kind hnone =>
      have hknown := (hadmissible.joins _ hj).kind
      simp [hnone] at hknown
  | operation hschema ho hfault =>
    obtain ⟨_, h⟩ | ⟨_, _, hkind, htext, htype, hnone, h⟩ | ⟨_, _, _, hkind, hq, hcollection, htype, hnone, h⟩ :=
      (hadmissible.operations _ ho).wrong_field hfault
    · exact nomatch h
    · exact QueryError.invalidOperation.inj h ▸ .noCollection hschema ho hkind htext htype hnone
    · exact QueryError.invalidOperation.inj h ▸ .noObjects hschema ho hkind hq hcollection htype hnone
  | aggregation hschema ha hfault =>
    cases hfault with
    | missingField hfunction hnone hneeds =>
      obtain ⟨hknown, hfield, hnamed, _⟩ | ⟨hcount, _⟩ := hadmissible.grouping.aggregations _ ha
      · simp [hfield, hnamed] at hnone
      · obtain rfl := Option.some.inj (hcount.symm.trans hfunction)
        simp [AggregateFunction.requiresField] at hneeds
    | wrongType hfunction hfield htype hnot =>
      obtain ⟨hsome, _⟩ := Option.filter_eq_some_iff.mp hfield
      exact .aggregate hschema ha hfunction hsome htype hnot
  | overflow hschema hworked hg ha hoverflows => exact .sumOverflow hschema hworked hg ha hoverflows
  | direction hitem hnone =>
    have hknown := (hadmissible.sort _ hitem).direction
    simp [hnone] at hknown

/-- **An operand of an accepted query that does not fit is there.** -/
theorem Fault.operand (haccepts : p.accepts q = true) {field : String} {expected : OperandShape}
    (h : q.Fault p s (.invalidValue field expected)) :
    ∃ c condition l v, q.Tests s c condition ∧ l ∈ condition.leaves ∧ l.field = field ∧ l.value = some v ∧
      expected.fits v = false := by
  obtain ⟨_, e, _, hadmissible⟩ := Policy.admissibleOn_of_accepts haccepts
  cases h with
  | @condition c condition _ htests hfault =>
    obtain ⟨g, hg⟩ := htests.admissible haccepts
    obtain ⟨l, hl, hlfault⟩ := hg.exists_leaf_of_fault hfault
    cases hlfault with
    | absent hop hneeds hnone =>
      obtain ⟨_, _, hop', _, hoperand⟩ | _ := hg.of_mem_leaves hl
      obtain rfl := Option.some.inj (hop.symm.trans hop')
      have hthere := hoperand.mpr hneeds
      simp [hnone] at hthere
    | @operand v _ hv hfits => exact ⟨c, condition, l, v, htests, hl, rfl, hv, hfits⟩
  | join _ _ hfault => exact nomatch hfault
  | operation _ ho hfault => exact nomatch hfault
  | aggregation _ ha hfault => exact nomatch hfault

end Query

/-! ## Engines -/

namespace Engine

variable {e : Engine Store} {text : String} {q : Query}

/-- **Accepted queries that are read from texts fail on types, never on vocabulary.** Such a query does not fail for
a symbol. If it fails for an operation, then it is a query on fields of the wrong types, or a sum overflows. If it
fails for an operand, then one of the leaves that it tests has an operand other than `null` that does not fit. -/
theorem accepted_fail_on_types {α : Type} (hstore : e.store.Reachable) (hread : Query.ofText text = .ok q)
    (haccepts : e.policy.accepts q = true) (target : Target α) (c : Circumstances) :
    (∀ symbol, (e.execute target q false c).1 ≠ .error (.query (.unsupportedOperator symbol))) ∧
    (∀ fault, (e.execute target q false c).1 = .error (.query (.invalidOperation fault)) →
      q.Mistyped e.policy e.store fault) ∧
    (∀ field expected, (e.execute target q false c).1 = .error (.query (.invalidValue field expected)) →
      ∃ columns condition l v, q.Tests e.store columns condition ∧ l ∈ condition.leaves ∧ l.field = field ∧
        l.value = some v ∧ v ≠ .null ∧ expected.fits v = false) := by
  refine ⟨?_, ?_, ?_⟩
  · intro symbol hfailed
    exact Query.Fault.ne_unsupportedOperator haccepts (fault_of_execute hstore.sound hfailed)
  · intro fault hfailed
    exact (fault_of_execute hstore.sound hfailed).mistyped haccepts
  · intro field expected hfailed
    obtain ⟨columns, condition, l, v, htests, hl, hfield, hv, hfits⟩ := (fault_of_execute hstore.sound hfailed).operand haccepts
    have hnull : v ≠ .null := fun hnull => Query.nullFree_of_tests hread htests l hl (hnull ▸ hv)
    exact ⟨columns, condition, l, v, htests, hl, hfield, hv, hnull, hfits⟩

/-! ## Devices with serial numbers -/

/-- Devices with a serial number. -/
def deviceSchema : EntitySchema where
  name := "Device"
  fields := [("Serial", .scalar .int)]
  identity := "Serial"

/-- A device. -/
def deviceEntities : List EntityData := [{ schema := deviceSchema, records := [[("Serial", .int 41)]] }]

/-- Devices may be tested by their serial numbers. -/
def devicePolicy : Policy :=
  ({} : Policy).withEntity { name := "Device", filterable := ["Serial"], selectable := ["Serial"] }

theorem deviceEntities_wellFormed : ∀ data ∈ deviceEntities, data.WellFormed := by decide +kernel

/-- An engine for devices. -/
def deviceEngine : Engine Store where
  policy := devicePolicy
  store := .ofEntities deviceEntities

/-- The devices whose serial numbers contain a digit, one group for each of them. -/
def deviceQuery : Query where
  entity := "Device"
  filters := [.leaf "Serial" "contains" (some (.string "4"))]
  groupBy := some { fields := ["Serial"] }

theorem ofText_deviceQuery : Query.ofText deviceQuery.toText = .ok deviceQuery := by decide +kernel

/-- The policy accepts a test of texts on serial numbers. The query fails, since serial numbers are no texts. -/
theorem accepted_fail_on_types_devices :
    devicePolicy.accepts deviceQuery = true ∧
      (deviceEngine.execute Target.value deviceQuery false {}).1 =
        .error (.query (.invalidOperation (.textOperator .contains "Serial" "int"))) ∧
      deviceQuery.Mistyped devicePolicy deviceEngine.store (.textOperator .contains "Serial" "int") := by
  have hstore : deviceEngine.store.Reachable := Store.reachable_ofEntities deviceEntities_wellFormed
  have haccepts : devicePolicy.accepts deviceQuery = true := by decide +kernel
  have hschema : deviceEngine.store.schema? "Device" = some deviceSchema :=
    Store.schema?_ofEntities deviceEntities_wellFormed (by simp [deviceEntities]) (by decide +kernel)
  have hfailed : (deviceEngine.execute Target.value deviceQuery false {}).1 =
      .error (.query (.invalidOperation (.textOperator .contains "Serial" "int"))) := by
    have hdeclaration : deviceEngine.store.declaration deviceQuery.entity = .ok deviceSchema :=
      Store.declaration_eq_ok_iff.mpr hschema
    have hop : FilterOperator.parse? "contains" = some .contains := by decide +kernel
    have htest : deviceSchema.columns.compileLeaf "Serial" "contains" (some (.string "4")) =
        .error (.invalidOperation (.textOperator .contains "Serial" "int")) := by
      rw [Columns.compileLeaf, hop]
      rfl
    have htests : deviceSchema.columns.compileAll deviceQuery.filters =
        .error (.invalidOperation (.textOperator .contains "Serial" "int")) := by
      rw [Columns.compileAll, deviceQuery, Columns.compileList, Columns.compile, htest]
      rfl
    refine execute_eq_query_error {} haccepts ?_ (by simp)
    rw [Query.result, Query.findings, Query.stock, hdeclaration]
    -- A grouped query needs no binding, so that its filters come next.
    change ((deviceSchema.columns.compileAll deviceQuery.filters >>= _) >>= _) >>= _ = _
    rw [htests]
    rfl
  obtain ⟨_, hmistyped, _⟩ := accepted_fail_on_types hstore ofText_deviceQuery haccepts Target.value {}
  exact ⟨haccepts, hfailed, hmistyped _ hfailed⟩

end Engine

end GuardedQuery
