import GuardedQuery.Validation.Validator
import Mathlib.Data.List.Basic

/-!
# Admissible queries

What a policy admits, said without the collection of violations: a query is admissible if each of its
parts is. The validator accepts exactly the admissible queries, so no part of a query escapes it, and no
limit cuts an inspection short without the query being refused.

## Main definitions

* `Grant`: what filters may test, with the grants of the three scopes.
* `Condition.Admissible`, `Policy.AdmitsFilters`: admissible trees, and lists of trees within the limits.
* `Query.Admissible`: admissible queries.

## Main statements

* `Condition.nodeViolations_eq_nil_iff`: a tree has no violation if and only if it is admissible.
* `Policy.accepts_iff_admissible`: a query is accepted if and only if it is admissible.
-/

namespace GuardedQuery

/-! ## Grants -/

/-- What filters may test. -/
structure Grant where
  /-- The fields that may be tested. -/
  field : String → Prop
  /-- The operators that a field may be tested by. -/
  operator : String → FilterOperator → Prop

namespace EntityPolicy

/-- Whether an operator may be used on a field: any operator, unless the policy lists some for it. -/
def Permits (e : EntityPolicy) (field : String) (op : FilterOperator) : Prop :=
  ∀ ops, Dict.get? e.operators field = some ops → op ∈ ops

/-- Filters on an entity test its filterable fields. -/
def entityGrant (e : EntityPolicy) : Grant where
  field f := f ∈ e.filterable
  operator := e.Permits

/-- Filters on the elements of a collection test the members that are filterable under their full name. -/
def collectionGrant (e : EntityPolicy) (collection : String) : Grant where
  field f := collection ++ "." ++ f ∈ e.filterable
  operator f := e.Permits (collection ++ "." ++ f)

/-- Filters on groups test the outputs of aggregations by any operator, and the filterable group fields. -/
def groupGrant (e : EntityPolicy) (fields outputs : List String) : Grant where
  field f := f ∈ outputs ∨ (f ∈ fields ∧ f ∈ e.filterable)
  operator f op := f ∈ outputs ∨ e.Permits f op

@[simp] theorem isFilterable_iff (e : EntityPolicy) (f : String) :
    e.isFilterable f = true ↔ f ∈ e.filterable := by
  simp [isFilterable]

@[simp] theorem isSortable_iff (e : EntityPolicy) (f : String) :
    e.isSortable f = true ↔ f ∈ e.sortable := by
  simp [isSortable]

@[simp] theorem isSelectable_iff (e : EntityPolicy) (f : String) :
    e.isSelectable f = true ↔ f ∈ e.selectable := by
  simp [isSelectable]

@[simp] theorem allowsOperator_iff (e : EntityPolicy) (f : String) (op : FilterOperator) :
    e.allowsOperator f op = true ↔ e.Permits f op := by
  rw [allowsOperator, Permits]
  cases Dict.get? e.operators f <;> simp

end EntityPolicy

namespace FilterScope

/-- The grant that a scope stands for. -/
def grant : FilterScope → Grant
  | entity p => p.entityGrant
  | collection p name => p.collectionGrant name
  | groups p fields outputs => p.groupGrant fields outputs

@[simp] theorem allowsField_iff (s : FilterScope) (f : String) :
    s.allowsField f = true ↔ s.grant.field f := by
  cases s <;>
    simp [allowsField, grant, policy, policyName, EntityPolicy.entityGrant,
      EntityPolicy.collectionGrant, EntityPolicy.groupGrant]

@[simp] theorem allowsOperator_iff (s : FilterScope) (f : String) (op : FilterOperator) :
    s.allowsOperator f op = true ↔ s.grant.operator f op := by
  cases s <;>
    simp [allowsOperator, grant, policy, policyName, EntityPolicy.entityGrant,
      EntityPolicy.collectionGrant, EntityPolicy.groupGrant]

end FilterScope

/-! ## Admissible filters -/

/-- A filter tree all of whose leaves are granted and all of whose groups are well formed. -/
inductive Condition.Admissible (g : Grant) : Condition → Prop
  /-- A leaf tests a granted field by a granted operator, and has an operand if and only if the operator
  takes one. -/
  | leaf {field operator : String} {value : Option Value} {op : FilterOperator} :
      Text.isBlankText field = false → g.field field → FilterOperator.parse? operator = some op →
      g.operator field op → (value.isSome = true ↔ op.requiresValue = true) →
      Admissible g (.leaf field operator value)
  /-- A group has a known logic and at least one condition. -/
  | group {conditions : List Condition} {logic : Option String} :
      (Logic.parse? logic).isSome = true → conditions ≠ [] → (∀ c ∈ conditions, Admissible g c) →
      Admissible g (.group conditions logic)

/-- A list of filter trees that is within the limits and whose trees are admissible. -/
structure Policy.AdmitsFilters (p : Policy) (g : Grant) (cs : List Condition) : Prop where
  /-- No tree is too deep. -/
  depth : Condition.depthList cs ≤ p.maxDepth
  /-- The trees do not have too many nodes. -/
  nodes : Condition.nodeCountList cs ≤ p.maxNodes
  /-- All trees are admissible. -/
  trees : ∀ c ∈ cs, c.Admissible g

@[simp] theorem violationUnless_eq_nil_iff (ok : Bool) (v : Violation) :
    violationUnless ok v = [] ↔ ok = true := by
  cases ok <;> simp [violationUnless]

namespace Condition

/-- The two rules about operands are one: an operand is there if and only if the operator takes one. -/
theorem operand_rules_iff (op : FilterOperator) (value : Option Value) :
    ((!(op.requiresValue && value.isNone)) = true ∧ (!(op.forbidsValue && value.isSome)) = true) ↔
      (value.isSome = true ↔ op.requiresValue = true) := by
  rw [FilterOperator.requiresValue]
  cases op.forbidsValue <;> cases value <;> simp

theorem leafViolations_eq_nil_iff (s : FilterScope) (field operator : String) (value : Option Value) :
    leafViolations s field operator value = [] ↔ Admissible s.grant (leaf field operator value) := by
  constructor
  · intro h
    rw [leafViolations] at h
    by_cases hblank : Text.isBlankText field = true
    · simp [hblank] at h
    · rw [if_neg hblank] at h
      obtain ⟨hfield, h⟩ := List.append_eq_nil_iff.mp h
      cases hop : FilterOperator.parse? operator with
      | none => simp [hop] at h
      | some op =>
        simp only [hop, List.append_eq_nil_iff, violationUnless_eq_nil_iff,
          FilterScope.allowsOperator_iff] at h
        obtain ⟨⟨hallowed, hneeds⟩, hforbids⟩ := h
        exact .leaf (by simpa using hblank) (by simpa using hfield) hop hallowed
          ((operand_rules_iff op value).mp ⟨hneeds, hforbids⟩)
  · rintro (⟨hblank, hfield, hop, hallowed, hvalue⟩)
    obtain ⟨hneeds, hforbids⟩ := (operand_rules_iff _ value).mpr hvalue
    simp only [leafViolations, hblank, hop, List.append_eq_nil_iff, violationUnless_eq_nil_iff,
      FilterScope.allowsField_iff, FilterScope.allowsOperator_iff, Bool.false_eq_true, if_false]
    exact ⟨hfield, ⟨hallowed, hneeds⟩, hforbids⟩

mutual

/-- A tree has no violation if and only if it is admissible. -/
theorem nodeViolations_eq_nil_iff (s : FilterScope) (c : Condition) :
    nodeViolations s c = [] ↔ c.Admissible s.grant := by
  cases c with
  | leaf field operator value => exact leafViolations_eq_nil_iff s field operator value
  | group cs logic =>
    simp only [nodeViolations, List.append_eq_nil_iff, violationUnless_eq_nil_iff,
      listViolations_eq_nil_iff s cs]
    constructor
    · rintro ⟨⟨hlogic, hne⟩, htrees⟩
      exact .group hlogic (by simpa using hne) htrees
    · rintro (_ | ⟨hlogic, hne, htrees⟩)
      exact ⟨⟨hlogic, by simpa using hne⟩, htrees⟩

/-- The trees of a list have no violation if and only if all of them are admissible. -/
theorem listViolations_eq_nil_iff (s : FilterScope) (cs : List Condition) :
    listViolations s cs = [] ↔ ∀ c ∈ cs, c.Admissible s.grant := by
  cases cs with
  | nil => simp [listViolations]
  | cons c rest =>
    simp [listViolations, nodeViolations_eq_nil_iff s c, listViolations_eq_nil_iff s rest]

end

end Condition

/-- A list of trees has no violation if and only if it is within the limits and its trees are admissible:
a limit that cuts the inspection short is itself a violation. -/
theorem Policy.filterViolations_eq_nil_iff (p : Policy) (s : FilterScope) (cs : List Condition) :
    p.filterViolations s cs = [] ↔ p.AdmitsFilters s.grant cs := by
  rw [filterViolations]
  by_cases hdepth : p.maxDepth < Condition.depthList cs
  · simp only [hdepth, if_true, List.cons_ne_nil, false_iff]
    intro h
    exact absurd h.depth (by omega)
  by_cases hnodes : p.maxNodes < Condition.nodeCountList cs
  · simp only [hdepth, hnodes, if_true, if_false, List.cons_ne_nil, false_iff]
    intro h
    exact absurd h.nodes (by omega)
  rw [if_neg hdepth, if_neg hnodes, Condition.listViolations_eq_nil_iff]
  exact ⟨fun h => ⟨by omega, by omega, h⟩, fun h => h.trees⟩

/-! ## Admissible parts of a query -/

/-- A sort key names a sortable field or, in a grouped query, an output column, and has a direction. -/
structure SortItem.Admissible (e : EntityPolicy) (q : Query) (s : SortItem) : Prop where
  /-- The field is named. -/
  named : Text.isBlankText s.field = false
  /-- Rows may be sorted by it. -/
  sortable : s.field ∈ e.sortable ∨ (q.isGrouped = true ∧ s.field ∈ q.outputNames)
  /-- The direction is known. -/
  direction : (Direction.parse? s.direction).isSome = true

/-- An operation that is known and has the parameters that it works with. -/
inductive Operation.Admissible (p : Policy) (e : EntityPolicy) (o : Operation) : Prop
  /-- A selectable collection is unwound. -/
  | selectMany {field : String} : OperationKind.parse? o.kind = some .selectMany →
      o.textParameter? "field" = some field → Text.isBlankText field = false → field ∈ e.selectable →
      Admissible p e o
  /-- Any number of rows is skipped. -/
  | skip {n : Nat} : OperationKind.parse? o.kind = some .skip → o.parameter? "count" = some (.int n) →
      Admissible p e o
  /-- At most a page of rows is taken. -/
  | take {n : Nat} : OperationKind.parse? o.kind = some .take → o.parameter? "count" = some (.int n) →
      n ≤ p.maxPageSize → Admissible p e o
  /-- A filterable collection is quantified over by conditions on its filterable members. -/
  | quantified {kind : OperationKind} {collection : String} {v : Value} {cs : List Condition} :
      OperationKind.parse? o.kind = some kind → kind = .any ∨ kind = .all →
      o.textParameter? "collection" = some collection → Text.isBlankText collection = false →
      collection ∈ e.filterable → o.parameter? "predicate" = some v → Condition.ofPredicate v = .ok cs →
      cs ≠ [] → p.AdmitsFilters (e.collectionGrant collection) cs → Admissible p e o
  /-- The other operations need nothing. -/
  | plain {kind : OperationKind} : OperationKind.parse? o.kind = some kind →
      kind ∈ [.distinct, .reverse, .first, .firstOrDefault, .single, .singleOrDefault] → Admissible p e o

/-- An aggregation whose function is known and whose field, if one is named, may be selected. Only rows can
be condensed without a field, by counting them. -/
inductive Aggregation.Admissible (e : EntityPolicy) (a : Aggregation) : Prop
  /-- A selectable field is condensed. -/
  | field {function : AggregateFunction} {field : String} :
      AggregateFunction.parse? a.function = some function → a.field = some field →
      Text.isBlankText field = false → field ∈ e.selectable → Admissible e a
  /-- The rows are counted. -/
  | rows : AggregateFunction.parse? a.function = some .count →
      (∀ f, a.field = some f → Text.isBlankText f = true) → Admissible e a

namespace Query

/-- The group fields; a query without grouping has none. -/
def groupFields (q : Query) : List String := (q.groupBy.map Grouping.fields).getD []

/-- The conditions on groups; a query without grouping has none. -/
def groupConditions (q : Query) : List Condition := (q.groupBy.map Grouping.having).getD []

/-- A grouping whose fields may be selected, and whose columns all have different names. -/
structure AdmissibleGrouping (p : Policy) (e : EntityPolicy) (q : Query) : Prop where
  /-- Rows may be grouped by the fields. -/
  fields : ∀ f ∈ q.groupFields, f ∈ e.selectable
  /-- Without group fields there are no groups to filter or to condense. -/
  ungrouped : q.groupFields = [] → q.groupConditions = [] ∧ q.aggregations = []
  /-- All aggregations are admissible. -/
  aggregations : ∀ a ∈ q.aggregations, a.Admissible e
  /-- No two aggregations fill one column. -/
  outputs : q.outputNames.Nodup
  /-- No aggregation fills the column of a group field. -/
  columns : ∀ name ∈ q.outputNames, name ∉ q.groupFields
  /-- The conditions on groups test output columns and filterable group fields. -/
  having : p.AdmitsFilters (e.groupGrant q.groupFields q.outputNames) q.groupConditions

end Query

/-- A join of a known kind with a configured entity. The fields that are compared are filterable on either
side, and the fields that are attached may be selected. -/
structure Join.Admissible (p : Policy) (e : EntityPolicy) (j : Join) : Prop where
  /-- The kind is known. -/
  kind : (JoinKind.parse? j.kind).isSome = true
  /-- The entity is named. -/
  named : Text.isBlankText j.entity = false
  /-- Some field must be equal. -/
  on : j.on ≠ []
  /-- The policy of the other entity allows the use of its fields. -/
  joined : ∃ joined, Dict.get? p.entities (Text.lower (Text.trim j.entity)) = some joined ∧
    (∀ pair ∈ j.on, pair.1 ∈ e.filterable ∧ pair.2 ∈ joined.filterable) ∧
    ∀ f ∈ j.select, f ∈ joined.selectable

namespace Query

/-- A query whose parts may all be used on the entity with the given policy. -/
structure AdmissibleOn (p : Policy) (e : EntityPolicy) (q : Query) : Prop where
  /-- A page size that is asked for lies between one and the greatest page size. -/
  page : ∀ size, q.page.bind PageRequest.size = some size → 1 ≤ size ∧ size ≤ p.maxPageSize
  /-- The filters test filterable fields. -/
  filters : p.AdmitsFilters e.entityGrant q.filters
  /-- All sort keys are admissible. -/
  sort : ∀ s ∈ q.sort, s.Admissible e q
  /-- All selected fields may be selected. -/
  select : ∀ f ∈ q.select, f ∈ e.selectable
  /-- All operations are admissible. -/
  operations : ∀ o ∈ q.operations, o.Admissible p e
  /-- The grouping is admissible. -/
  grouping : q.AdmissibleGrouping p e
  /-- All joins are admissible. -/
  joins : ∀ j ∈ q.joins, j.Admissible p e

/-- A query on a configured entity whose parts may all be used. -/
def Admissible (p : Policy) (q : Query) : Prop :=
  Text.isBlankText q.entity = false ∧
    ∃ e, Dict.get? p.entities (Text.lower (Text.trim q.entity)) = some e ∧ q.AdmissibleOn p e

end Query

/-! ## The violations of each part -/

theorem Policy.pageViolations_eq_nil_iff (p : Policy) (q : Query) :
    p.pageViolations q = [] ↔
      ∀ size, q.page.bind PageRequest.size = some size → 1 ≤ size ∧ size ≤ p.maxPageSize := by
  rw [pageViolations]
  cases q.page.bind PageRequest.size <;> simp

theorem Value.asUInt64?_eq_some_iff (v : Value) (n : Nat) : v.asUInt64? = some n ↔ v = .int n := by
  cases v with
  | int m =>
    simp only [asUInt64?, Value.int.injEq]
    split
    · simp only [Option.some.injEq]
      omega
    · simp only [reduceCtorEq, false_iff]
      omega
  | _ => simp [asUInt64?]

/-- A predicate that can be read has at least one condition. -/
theorem Condition.ofPredicate_ne_nil {v : Value} {cs : List Condition} (h : ofPredicate v = .ok cs) :
    cs ≠ [] := by
  unfold ofPredicate at h
  split at h
  · split at h <;> simp at h
    simp [← h]
  · split at h
    · simp at h
    · rename_i hne _
      simp only [Except.ok.injEq] at h
      subst h
      rintro rfl
      exact hne rfl
    · simp at h
  · simp at h

namespace EntityPolicy

theorem sortViolations_eq_nil_iff (e : EntityPolicy) (q : Query) (s : SortItem) :
    e.sortViolations q s = [] ↔ s.Admissible e q := by
  rw [sortViolations]
  by_cases hblank : Text.isBlankText s.field = true
  · simp only [hblank, if_true, List.cons_ne_nil, false_iff]
    exact fun h => absurd h.named (by simp [hblank])
  · rw [if_neg hblank]
    simp only [List.append_eq_nil_iff, violationUnless_eq_nil_iff, Bool.or_eq_true, Bool.and_eq_true,
      List.contains_iff_mem, isSortable_iff]
    constructor
    · rintro ⟨hsortable, hdirection⟩
      exact ⟨by simpa using hblank, hsortable.symm, hdirection⟩
    · rintro ⟨_, hsortable, hdirection⟩
      exact ⟨hsortable.symm, hdirection⟩

theorem nameParameter?_eq_some_iff (o : Operation) (name s : String) :
    nameParameter? o name = some s ↔ o.textParameter? name = some s ∧ Text.isBlankText s = false := by
  simp [nameParameter?, Option.filter_eq_some_iff]

theorem countViolations_eq_nil_iff (p : Policy) (kind : OperationKind) (o : Operation) :
    countViolations p kind o = [] ↔
      ∃ n : Nat, o.parameter? "count" = some (.int n) ∧ (kind = .take → n ≤ p.maxPageSize) := by
  rw [countViolations]
  cases hcount : o.parameter? "count" with
  | none => simp
  | some v =>
    cases hn : v.asUInt64? with
    | none =>
      simp only [hn, List.cons_ne_nil, Option.some.injEq, false_iff, not_exists, not_and]
      rintro n rfl
      simp [(Value.asUInt64?_eq_some_iff (.int n) n).mpr rfl] at hn
    | some n =>
      obtain rfl := (Value.asUInt64?_eq_some_iff v n).mp hn
      have hbound : (!(kind == .take && decide (p.maxPageSize < n))) = true ↔
          (kind = .take → n ≤ p.maxPageSize) := by
        simp [imp_iff_not_or]
      simp only [hn, violationUnless_eq_nil_iff, hbound, Option.some.injEq, Value.int.injEq]
      constructor
      · exact fun h => ⟨n, rfl, h⟩
      · rintro ⟨m, hm, h⟩
        obtain rfl : n = m := by omega
        exact h

theorem elementViolations_eq_nil_iff (p : Policy) (e : EntityPolicy) (kind : OperationKind)
    (collection : String) (v : Value) :
    elementViolations p e kind collection v = [] ↔
      ∃ cs, Condition.ofPredicate v = .ok cs ∧ p.AdmitsFilters (e.collectionGrant collection) cs := by
  rw [elementViolations]
  cases Condition.ofPredicate v with
  | error reason => simp
  | ok cs => simp [Policy.filterViolations_eq_nil_iff, FilterScope.grant]

theorem quantifiedViolations_eq_nil_iff (p : Policy) (e : EntityPolicy) (kind : OperationKind)
    (o : Operation) :
    quantifiedViolations p e kind o = [] ↔
      ∃ collection v cs, (o.textParameter? "collection" = some collection ∧
          Text.isBlankText collection = false) ∧ collection ∈ e.filterable ∧
        o.parameter? "predicate" = some v ∧ Condition.ofPredicate v = .ok cs ∧
        p.AdmitsFilters (e.collectionGrant collection) cs := by
  simp only [← nameParameter?_eq_some_iff]
  rw [quantifiedViolations]
  cases nameParameter? o "collection" with
  | none => simp
  | some collection =>
    cases o.parameter? "predicate" with
    | none => simp
    | some v =>
      simp only [List.append_eq_nil_iff, violationUnless_eq_nil_iff, elementViolations_eq_nil_iff,
        isFilterable_iff, Option.isSome_some, true_and, Option.some.injEq]
      constructor
      · rintro ⟨hcollection, cs, hcs, hadmits⟩
        exact ⟨collection, v, cs, rfl, hcollection, rfl, hcs, hadmits⟩
      · rintro ⟨_, _, cs, rfl, hcollection, rfl, hcs, hadmits⟩
        exact ⟨hcollection, cs, hcs, hadmits⟩

/-- A quantifier has no violation if and only if it is admissible. -/
theorem quantifiedViolations_eq_nil_iff_admissible (p : Policy) (e : EntityPolicy) {kind : OperationKind}
    {o : Operation} (hkind : OperationKind.parse? o.kind = some kind) (hq : kind = .any ∨ kind = .all) :
    quantifiedViolations p e kind o = [] ↔ o.Admissible p e := by
  rw [quantifiedViolations_eq_nil_iff]
  constructor
  · rintro ⟨collection, v, cs, ⟨hcollection, hblank⟩, hfilterable, hv, hcs, hadmits⟩
    exact .quantified hkind hq hcollection hblank hfilterable hv hcs (Condition.ofPredicate_ne_nil hcs) hadmits
  · intro h
    cases h with
    | quantified _ _ hcollection hblank hfilterable hv hcs _ hadmits =>
      exact ⟨_, _, _, ⟨hcollection, hblank⟩, hfilterable, hv, hcs, hadmits⟩
    | plain hk hmem =>
      obtain rfl : kind = _ := by simpa [hkind] using hk
      rcases hq with rfl | rfl <;> simp at hmem
    | selectMany hk | skip hk | take hk =>
      rcases hq with rfl | rfl <;> simp [hkind] at hk

theorem operationViolations_eq_nil_iff (p : Policy) (e : EntityPolicy) (o : Operation) :
    operationViolations p e o = [] ↔ o.Admissible p e := by
  rw [operationViolations]
  cases hkind : OperationKind.parse? o.kind with
  | none =>
    simp only [List.cons_ne_nil, false_iff]
    intro h
    cases h <;> simp_all
  | some kind =>
    cases kind with
    | any => exact quantifiedViolations_eq_nil_iff_admissible p e hkind (.inl rfl)
    | all => exact quantifiedViolations_eq_nil_iff_admissible p e hkind (.inr rfl)
    | selectMany =>
      cases hfield : nameParameter? o "field" with
      | none =>
        simp only [List.cons_ne_nil, false_iff]
        rintro (⟨_, htext, hblank, _⟩ | hk | hk | ⟨hk, hq, _⟩ | ⟨hk, hmem⟩)
        · simp [(nameParameter?_eq_some_iff o "field" _).mpr ⟨htext, hblank⟩] at hfield
        all_goals simp_all
      | some field =>
        obtain ⟨htext, hblank⟩ := (nameParameter?_eq_some_iff o "field" field).mp hfield
        simp only [violationUnless_eq_nil_iff, isSelectable_iff]
        constructor
        · exact fun h => .selectMany hkind htext hblank h
        · rintro (⟨_, htext', _, hmem⟩ | hk | hk | ⟨hk, hq, _⟩ | ⟨hk, hmem⟩)
          all_goals simp_all
    | skip =>
      simp only [countViolations_eq_nil_iff, reduceCtorEq, false_imp_iff, and_true]
      constructor
      · rintro ⟨n, hn⟩
        exact .skip hkind hn
      · rintro (hk | ⟨_, hn⟩ | hk | ⟨hk, hq, _⟩ | ⟨hk, hmem⟩)
        · simp_all
        · exact ⟨_, hn⟩
        all_goals simp_all
    | take =>
      simp only [countViolations_eq_nil_iff, true_imp_iff]
      constructor
      · rintro ⟨n, hn, hle⟩
        exact .take hkind hn hle
      · rintro (hk | hk | ⟨_, hn, hle⟩ | ⟨hk, hq, _⟩ | ⟨hk, hmem⟩)
        · simp_all
        · simp_all
        · exact ⟨_, hn, hle⟩
        all_goals simp_all
    | distinct | reverse | first | firstOrDefault | single | singleOrDefault =>
      exact ⟨fun _ => .plain hkind (by simp), fun _ => rfl⟩

theorem condensedViolations_eq_nil_iff (e : EntityPolicy) {a : Aggregation} {function : AggregateFunction}
    (hf : AggregateFunction.parse? a.function = some function) :
    condensedViolations e function a.field = [] ↔ a.Admissible e := by
  rw [condensedViolations]
  cases hfield : a.field.filter fun f => !Text.isBlankText f with
  | some field =>
    obtain ⟨hsome, hblank⟩ := Option.filter_eq_some_iff.mp hfield
    have hblank : Text.isBlankText field = false := by simpa using hblank
    simp only [violationUnless_eq_nil_iff, isSelectable_iff]
    constructor
    · exact fun h => .field hf hsome hblank h
    · rintro (⟨_, hsome', _, hmem⟩ | ⟨_, hall⟩)
      · simp_all
      · simp [hall field hsome] at hblank
  | none =>
    have hall : ∀ f, a.field = some f → Text.isBlankText f = true := by
      simpa [Option.filter_eq_none_iff] using hfield
    have hcount : (!function.requiresField) = true ↔ function = .count := by
      simp [AggregateFunction.requiresField]
    simp only [violationUnless_eq_nil_iff, hcount]
    constructor
    · rintro rfl
      exact .rows hf hall
    · rintro (⟨_, hsome, hblank, _⟩ | ⟨hcount, _⟩)
      · simp [hall _ hsome] at hblank
      · simpa [hf] using hcount

/-- The columns before an aggregation are the group fields and the outputs of earlier aggregations; the
names already taken are the invariant of the recursion. -/
theorem aggregationViolations_eq_nil_iff (e : EntityPolicy) (as : List Aggregation) (columns : List String) :
    aggregationViolations e columns as = [] ↔
      (∀ a ∈ as, a.Admissible e) ∧ (as.map Aggregation.outputName).Nodup ∧
        ∀ name ∈ as.map Aggregation.outputName, name ∉ columns := by
  induction as generalizing columns with
  | nil => simp [aggregationViolations]
  | cons a rest ih =>
    rw [aggregationViolations]
    cases hf : AggregateFunction.parse? a.function with
    | none =>
      simp only [List.cons_ne_nil, false_iff]
      rintro ⟨hall, _⟩
      rcases hall a (by simp) with ⟨h, _⟩ | ⟨h, _⟩ <;> simp [hf] at h
    | some function =>
      simp only [List.append_eq_nil_iff, condensedViolations_eq_nil_iff e hf, violationUnless_eq_nil_iff, ih,
        Bool.not_eq_true', List.contains_eq_mem, decide_eq_false_iff_not, List.map_cons, List.nodup_cons,
        List.forall_mem_cons]
      simp only [List.mem_cons, not_or]
      constructor
      · rintro ⟨⟨ha, hnew⟩, hrest, hnodup, hfresh⟩
        exact ⟨⟨ha, hrest⟩, ⟨fun hmem => (hfresh _ hmem).1 rfl, hnodup⟩, hnew, fun n hn => (hfresh n hn).2⟩
      · rintro ⟨⟨ha, hrest⟩, ⟨hfirst, hnodup⟩, hnew, hfresh⟩
        exact ⟨⟨ha, hnew⟩, hrest, hnodup, fun n hn => ⟨fun h => hfirst (h ▸ hn), hfresh n hn⟩⟩

theorem groupingViolations_eq_nil_iff (p : Policy) (e : EntityPolicy) (q : Query) :
    groupingViolations p e q = [] ↔ q.AdmissibleGrouping p e := by
  have hhaving : ((if q.groupFields.isEmpty || q.groupConditions.isEmpty then []
      else p.filterViolations (.groups e q.groupFields q.outputNames) q.groupConditions) = []) ↔
      (q.groupFields = [] ∨ q.groupConditions = [] ∨
        p.AdmitsFilters (e.groupGrant q.groupFields q.outputNames) q.groupConditions) := by
    by_cases hf : q.groupFields = []
    · simp [hf]
    by_cases hc : q.groupConditions = []
    · simp [hc]
    simp [hf, hc, Policy.filterViolations_eq_nil_iff, FilterScope.grant]
  have hempty : p.AdmitsFilters (e.groupGrant q.groupFields q.outputNames) [] :=
    ⟨by simp [Condition.depthList], by simp [Condition.nodeCountList], by simp⟩
  have hparts : groupingViolations p e q =
      q.groupFields.flatMap (fun f => violationUnless (e.isSelectable f) (e.notAllowed f .grouping))
      ++ violationUnless (!(q.groupFields.isEmpty && !q.groupConditions.isEmpty)) .havingWithoutGroupBy
      ++ violationUnless (!(q.groupFields.isEmpty && !q.aggregations.isEmpty)) .aggregationWithoutGroupBy
      ++ aggregationViolations e q.groupFields q.aggregations
      ++ (if q.groupFields.isEmpty || q.groupConditions.isEmpty then []
        else p.filterViolations (.groups e q.groupFields q.outputNames) q.groupConditions) := rfl
  rw [hparts]
  simp only [List.append_eq_nil_iff, hhaving, aggregationViolations_eq_nil_iff, violationUnless_eq_nil_iff,
    List.flatMap_eq_nil_iff, isSelectable_iff, Bool.not_eq_true', Bool.and_eq_false_iff,
    Bool.not_eq_false', List.isEmpty_eq_false_iff, List.isEmpty_iff]
  constructor
  · rintro ⟨⟨⟨⟨hfields, hungrouped⟩, hplain⟩, haggs, hnodup, hfresh⟩, hadmits⟩
    have hno : q.groupFields = [] → q.groupConditions = [] ∧ q.aggregations = [] := by
      intro h
      simp_all
    refine ⟨hfields, hno, haggs, hnodup, hfresh, ?_⟩
    rcases hadmits with h | h | h
    · rw [(hno h).1]; exact hempty
    · rw [h]; exact hempty
    · exact h
  · intro h
    refine ⟨⟨⟨⟨h.fields, ?_⟩, ?_⟩, h.aggregations, h.outputs, h.columns⟩, .inr (.inr h.having)⟩
    · by_cases hf : q.groupFields = []
      · simp [(h.ungrouped hf).1]
      · exact .inl hf
    · by_cases hf : q.groupFields = []
      · simp [(h.ungrouped hf).2]
      · exact .inl hf

theorem joinViolations_eq_nil_iff (p : Policy) (e : EntityPolicy) (j : Join) :
    joinViolations p e j = [] ↔ j.Admissible p e := by
  rw [joinViolations]
  by_cases hblank : Text.isBlankText j.entity = true
  · simp only [hblank, if_true, List.append_eq_nil_iff, List.cons_ne_nil, and_false, false_iff]
    exact fun h => absurd h.named (by simp [hblank])
  rw [if_neg hblank]
  have hnamed : Text.isBlankText j.entity = false := by simpa using hblank
  cases hentity : p.entity? j.entity with
  | none =>
    simp only [List.append_eq_nil_iff, List.cons_ne_nil, and_false, false_iff]
    rintro ⟨_, _, _, joined, hjoined, _⟩
    have := hentity.symm.trans hjoined
    simp at this
  | some joined =>
    simp only [List.append_eq_nil_iff, violationUnless_eq_nil_iff, List.flatMap_eq_nil_iff, isFilterable_iff,
      isSelectable_iff, Bool.not_eq_true', List.isEmpty_eq_false_iff]
    constructor
    · rintro ⟨hkind, hon, hpairs, hselect⟩
      exact ⟨hkind, hnamed, hon, joined, hentity, hpairs, hselect⟩
    · rintro ⟨hkind, _, hon, joined', hjoined, hpairs, hselect⟩
      obtain rfl : joined = joined' := Option.some.inj (hentity.symm.trans hjoined)
      exact ⟨hkind, hon, hpairs, hselect⟩

/-- The parts of a query that depend on the entity have no violation if and only if they are admissible. -/
theorem violations_eq_nil_iff (p : Policy) (e : EntityPolicy) (q : Query) :
    p.pageViolations q ++ e.violations p q = [] ↔ q.AdmissibleOn p e := by
  rw [violations]
  simp only [List.append_eq_nil_iff, List.flatMap_eq_nil_iff, Policy.pageViolations_eq_nil_iff,
    Policy.filterViolations_eq_nil_iff, sortViolations_eq_nil_iff, operationViolations_eq_nil_iff,
    groupingViolations_eq_nil_iff, joinViolations_eq_nil_iff, violationUnless_eq_nil_iff, isSelectable_iff]
  constructor
  · rintro ⟨hpage, ⟨⟨⟨⟨hfilters, hsort⟩, hselect⟩, hoperations⟩, hgrouping⟩, hjoins⟩
    exact ⟨hpage, hfilters, hsort, hselect, hoperations, hgrouping, hjoins⟩
  · intro h
    exact ⟨h.page, ⟨⟨⟨⟨h.filters, h.sort⟩, h.select⟩, h.operations⟩, h.grouping⟩, h.joins⟩

end EntityPolicy

namespace Policy

/-- An accepted query is on a configured entity, and admissible under the policy of that entity. -/
theorem admissibleOn_of_accepts {p : Policy} {q : Query} (h : p.accepts q = true) :
    Text.isBlankText q.entity = false ∧ ∃ e, p.entity? q.entity = some e ∧ q.AdmissibleOn p e := by
  rw [accepts, violations] at h
  by_cases hblank : Text.isBlankText q.entity = true
  · simp [hblank] at h
  rw [if_neg hblank] at h
  cases hentity : p.entity? q.entity with
  | none => simp [hentity] at h
  | some e =>
    have hnone : p.pageViolations q ++ e.violations p q = [] := by
      simpa only [hentity, List.isEmpty_iff] using h
    exact ⟨by simpa using hblank, e, rfl, (e.violations_eq_nil_iff p q).mp hnone⟩

/-- **The validator accepts exactly the admissible queries**: it lets nothing pass that its rules forbid,
and refuses nothing that they allow. -/
theorem accepts_iff_admissible (p : Policy) (q : Query) : p.accepts q = true ↔ q.Admissible p := by
  constructor
  · exact admissibleOn_of_accepts
  · rintro ⟨hnamed, e, hentity, hadmissible⟩
    have hnone := (e.violations_eq_nil_iff p q).mpr hadmissible
    have hfound : p.entity? q.entity = some e := hentity
    rw [accepts, violations]
    simp only [hnamed, hfound, hnone, Bool.false_eq_true, if_false, List.isEmpty_nil]

end Policy

end GuardedQuery
