import GuardedQuery.Proofs.Evaluation
import GuardedQuery.Proofs.Outcome
import GuardedQuery.Proofs.Trail

/-!
# Answers whose rows are records

The rows of an ungrouped query without joins and operations are records of the table. What is worked out
before the page is cut out depends on the declaration only: the binding, the predicate and the keys, which are
the requested ones followed by the identity. A page of such a query is a page of the sorted records.

## Main definitions

* `Query.IsPlain`: queries whose rows are records.
* `Query.Plan`, `Query.Planned`: what a query works out from the declaration.
* `Query.requestedKeys`: the keys that a query asks for.

## Main statements

* `Query.result_plain`: the answer is a page of the sorted records.
* `Query.exists_plan`: a query that has an answer has a plan.
-/

namespace GuardedQuery.Query

/-- A query whose rows are records. -/
structure IsPlain (q : Query) : Prop where
  /-- The query is not grouped. -/
  ungrouped : q.isGrouped = false
  /-- Nothing is joined. -/
  joins : q.joins = []
  /-- There are no operations. -/
  operations : q.operations = []

/-- What a query works out from the declaration of its entity. -/
structure Plan where
  /-- The binding of the answer. -/
  binding : Binding
  /-- The predicate of the filters. -/
  predicate : Predicate
  /-- The keys that order the rows. -/
  keys : List SortKey

/-- The plan of a query for the given form of answers. -/
structure Planned (q : Query) (registry : Registry) (label : String) (schema : EntitySchema) (plan : Plan) :
    Prop where
  /-- The binding is registered. -/
  binding : registry.get? label schema.name = some plan.binding
  /-- The filters are compiled. -/
  predicate : schema.columns.compileAll q.filters = .ok plan.predicate
  /-- The keys are those of the records. -/
  keys : q.recordKeys (fun _ => none) schema plan.binding = .ok plan.keys

variable {q : Query} {registry : Registry} {label : String} {s : Store} {t : Table} {plan : Plan}

/-- Without joins, no other declaration is looked up. -/
theorem recordKeys_of_joins_eq_nil (h : q.joins = []) (lookUp lookUp' : String → Option EntitySchema)
    (schema : EntitySchema) (b : Binding) : q.recordKeys lookUp schema b = q.recordKeys lookUp' schema b := by
  simp only [recordKeys, h, List.foldlM_nil]

/-- The findings of a query with a plan. -/
def Plan.findings (plan : Plan) (t : Table) : Findings where
  schema := t.schema
  binding := some plan.binding
  rows := (SortKey.sort plan.keys (t.records.filter plan.predicate.holds)).map fun r =>
    { source := r, shaped := plan.binding.project r }
  keys := plan.keys
  passing := (t.records.filter plan.predicate.holds).length
  examined := t.records.length

theorem findings_plain (hq : q.IsPlain) (policy : Policy) (ht : s.table? q.entity = some t)
    (hname : s.table? t.schema.name = some t) (hplan : q.Planned registry label t.schema plan)
    (horders : SortKey.Orders plan.keys (· ∈ t.records.filter plan.predicate.holds)) :
    q.findings policy s registry label = .ok (plan.findings t) := by
  have hbinding : q.bindingFor registry label t.schema = .ok (some plan.binding) :=
    bindingFor_eq_ok_iff.mpr (.inr ⟨hq.ungrouped, rfl, hplan.binding⟩)
  have hkeys := recordKeys_of_joins_eq_nil hq.joins s.schema? (fun _ => none) t.schema plan.binding
  rw [hplan.keys] at hkeys
  have hsorting : ∀ rows, q.sorting s.schema? t.schema (some plan.binding) rows = .ok (rows, plan.keys) := by
    intro rows
    simp [sorting, hq.operations, Operation.reverses, hkeys, orient, bind, Except.bind, pure, Except.pure]
  simp [findings, stock, Store.declaration_of_table ht, hbinding, hplan.predicate, Store.find_of_table hname, hq.joins,
    hq.operations, Join.allOnStore, Operation.onAllRecords, Operation.onAllRows, hsorting, Stock.sorted, Stock.finish,
    SortKey.sort?_eq_some horders, bind, Except.bind, pure, Except.pure, Plan.findings, ShapedRow.ofRecord]

/-- A query that finds something has a plan. -/
theorem exists_plan (hq : q.IsPlain) {policy : Policy} (ht : s.table? q.entity = some t) {f : Findings}
    (h : q.findings policy s registry label = .ok f) : ∃ plan, q.Planned registry label t.schema plan := by
  obtain ⟨st, h, _⟩ := Outcome.bind_eq_ok_iff.mp h
  rw [stock, Store.declaration_of_table ht] at h
  obtain ⟨schema, hschema, h⟩ := Outcome.bind_eq_ok_iff.mp h
  obtain rfl := Except.ok.inj hschema
  obtain ⟨binding, hbinding, h⟩ := Outcome.bind_eq_ok_iff.mp h
  obtain ⟨predicate, hpredicate, h⟩ := Outcome.bind_eq_ok_iff.mp h
  obtain ⟨found, _, h⟩ := Outcome.bind_eq_ok_iff.mp h
  obtain ⟨joined, _, h⟩ := Outcome.bind_eq_ok_iff.mp h
  obtain ⟨rows, _, h⟩ := Outcome.bind_eq_ok_iff.mp h
  obtain ⟨unsorted, hsorting, _⟩ := Outcome.bind_eq_ok_iff.mp h
  obtain ⟨b, rfl, hget⟩ := exists_of_bindingFor hq.ungrouped hbinding
  obtain ⟨reversed, _, hsorting⟩ := Outcome.bind_eq_ok_iff.mp hsorting
  obtain ⟨keys, hkeys, _⟩ := Outcome.bind_eq_ok_iff.mp hsorting
  rw [recordKeys_of_joins_eq_nil hq.joins _ fun _ => none] at hkeys
  exact ⟨{ binding := b, predicate, keys }, hget, hpredicate, hkeys⟩

/-- The item of a record. -/
def itemOf (q : Query) (plan : Plan) (r : Record) : Value :=
  .object (plan.binding.narrow q.select (plan.binding.project r))

/-- The page of the sorted records that pass. -/
def recordPage (q : Query) (policy : Policy) (plan : Plan) (t : Table) : Page Record :=
  (Page.ofRequest plan.keys (policy.effectivePageSize (q.page.bind PageRequest.size))
    (q.page.bind PageRequest.cursor) id (SortKey.sort plan.keys (t.records.filter plan.predicate.holds))).1

/-- **The answer of a query whose rows are records** is a page of the sorted records that pass, if the keys order
them. -/
theorem result_plain (hq : q.IsPlain) (policy : Policy) (ht : s.table? q.entity = some t)
    (hname : s.table? t.schema.name = some t)
    (hplan : q.Planned registry Target.value.label t.schema plan)
    (horders : SortKey.Orders plan.keys (· ∈ t.records.filter plan.predicate.holds)) :
    q.result policy s registry Target.value = .ok
      { items := (q.recordPage policy plan t).rows.map (q.itemOf plan)
        size := policy.effectivePageSize (q.page.bind PageRequest.size)
        nextCursor := (q.recordPage policy plan t).next
        totalCount := if q.wantsCount then some (t.records.filter plan.predicate.holds).length else none
        rowsExamined := t.records.length } := by
  have hitems : ∀ records : List Record,
      (records.map fun r => ({ source := r, shaped := plan.binding.project r } : ShapedRow)).mapM
          (q.item Target.value (some plan.binding)) =
        .ok (records.map (q.itemOf plan)) := by
    intro records
    induction records with
    | nil => rfl
    | cons r rest ih =>
      have hfirst : q.item Target.value (some plan.binding)
          { source := r, shaped := plan.binding.project r } = .ok (q.itemOf plan r) := rfl
      rw [List.map_cons, List.mapM_cons, hfirst, ih]
      rfl
  have hpage : (q.pageOf policy (plan.findings t)).1.rows =
        (q.recordPage policy plan t).rows.map (fun r => { source := r, shaped := plan.binding.project r }) ∧
      (q.pageOf policy (plan.findings t)).1.next = (q.recordPage policy plan t).next :=
    Page.ofRequest_map plan.keys _ _ (fun _ => rfl) _
  rw [result, findings_plain hq policy ht hname hplan horders]
  simp only [bind, Except.bind, respond, hpage.1, hpage.2]
  rw [show (plan.findings t).binding = some plan.binding from rfl, hitems]
  rfl

/-! ## Keys -/

/-- The key that a sort item asks for. -/
def requestedKey (schema : EntitySchema) (item : SortItem) : SortKey :=
  SortKey.typed { field := item.field, direction := (Direction.parse? item.direction).getD .asc }
    (schema.fieldType? item.field)

/-- The keys that a query asks for. -/
def requestedKeys (q : Query) (schema : EntitySchema) : List SortKey := q.sort.map (requestedKey schema)

theorem recordKey_eq {schema : EntitySchema} {b : Binding} {item : SortItem} {k : SortKey}
    (h : recordKey schema b item = .ok k) : requestedKey schema item = k := by
  obtain ⟨direction, hdirection, h⟩ := Outcome.bind_eq_ok_iff.mp h
  have hparse : Direction.parse? item.direction = some direction := by
    rw [SortItem.directionOf] at hdirection
    cases hd : Direction.parse? item.direction with
    | none => simp [hd] at hdirection
    | some d => simpa [hd] using hdirection
  split at h
  · simp at h
  · rw [← Except.ok.inj h, requestedKey, hparse]
    rfl

/-- The keys of a plan are the requested ones, followed by the identity. -/
theorem Planned.keys_eq (hplan : q.Planned registry label t.schema plan) (hjoins : q.joins = []) :
    plan.keys =
      withTieBreaker (q.requestedKeys t.schema) t.schema.identity (t.schema.fieldType? t.schema.identity) := by
  obtain ⟨keys, hkeys, h⟩ := Outcome.bind_eq_ok_iff.mp hplan.keys
  have hrequested : q.requestedKeys t.schema = keys := by
    have heach := Outcome.mapM_eq_ok_iff.mp hkeys
    have hmap : List.Forall₂ (fun item k => requestedKey t.schema item = k) q.sort keys :=
      heach.imp fun _ _ hkey => recordKey_eq hkey
    rwa [requestedKeys, ← List.forall₂_eq_eq_eq, List.forall₂_map_left_iff]
  split at h
  · simp at h
  · rw [hjoins, List.foldlM_nil] at h
    rw [← Except.ok.inj h, hrequested]

end GuardedQuery.Query
