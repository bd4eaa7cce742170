import GuardedQuery.Proofs.HiddenFields
import GuardedQuery.Proofs.PageWalk

/-!
# The stages of ungrouped answers

An ungrouped query that finds something has read the records that pass its filters, joined them, worked on them,
sorted and projected them, and worked on the finished rows. Whatever the last step does, it only leaves rows out. So
pages can be cut out of what is left, as long as the values of the keys are orderly: compared exactly, and such that
a cursor can carry them. Values of columns that are not declared as floats are of this kind.

## Main definitions

* `Value.Orderly`: values by which rows can be ordered and paged.
* `Query.Stages`, `Query.Staged`: the stages of an ungrouped query.

## Main statements

* `Table.Sound.orderly_value`: values of columns that are no floats are orderly.
* `Query.exists_stages`: an ungrouped query that finds something has stages.
* `Engine.pageable_of_sublist`: pages can be cut out of some of the sorted rows.
* `Engine.pagesVisit_sorted_iff`: all sorted rows are visited if and only if no two rows tie.
-/

namespace GuardedQuery

/-! ## Orderly values -/

/-- Values by which rows can be ordered and paged. -/
structure Value.Orderly (v : Value) : Prop where
  /-- They are compared exactly. -/
  exact : v.Exact
  /-- A cursor can carry them. -/
  travels : v.Travels

theorem Value.Plain.orderly {v : Value} (h : v.Plain) : v.Orderly := ⟨h.exact, h.travels⟩

/-- A value that conforms to a type other than floats is compared exactly. -/
theorem FieldType.exact_of_conforms {t : FieldType} (ht : t ≠ .scalar .float) {v : Value} (hwell : v.WellFormed)
    (h : t.conforms v = true) : v.Exact := by
  cases t with
  | scalar type =>
    have htype : type ≠ .float := fun heq => ht (by rw [heq])
    exact (ScalarType.plain_of_conforms htype hwell h).exact
  | object fields => cases v <;> simp [conforms] at h <;> trivial
  | array element => cases v <;> simp [conforms] at h <;> trivial

/-- A well-formed value that conforms to a type other than floats is orderly unless it is too deep. -/
theorem FieldType.orderly_of_conforms {t : FieldType} (ht : t ≠ .scalar .float) {v : Value} (hwell : v.WellFormed)
    (h : t.conforms v = true) (hdepth : v.depth ≤ 125) : v.Orderly :=
  ⟨exact_of_conforms ht hwell h, Value.travels_of_wellFormed hwell hdepth⟩

theorem Value.orderly_null : Value.Orderly .null := Value.Plain.null.orderly

/-- The value of a column of a sound table that is not declared as a float is orderly unless it is too deep. -/
theorem Table.Sound.orderly_value {t : Table} (h : t.Sound) {r : Record} (hr : r ∈ t.records)
    (hwell : ∀ m ∈ r, m.2.WellFormed) {field : String}
    (hfloat : t.schema.fieldType? field ≠ some (.scalar .float)) (hdepth : (Record.value r field).depth ≤ 125) :
    (Record.value r field).Orderly := by
  cases hget : Dict.get? r field with
  | none =>
    rw [Record.value_of_get?_eq_none hget]
    exact Value.orderly_null
  | some v =>
    obtain ⟨declared, hfield, hconforms⟩ := h.conforming r hr field v hget
    rw [Record.value_of_get? hget] at hdepth ⊢
    refine FieldType.orderly_of_conforms ?_ (hwell (field, v) (Dict.mem_of_get? hget)) hconforms hdepth
    rintro rfl
    exact hfloat hfield

/-! ## Finished rows -/

theorem distinctBy_sublist {α : Type} (shape : α → Record) (seen : List String) (rows : List α) :
    (distinctBy shape seen rows).Sublist rows := by
  induction rows generalizing seen with
  | nil => exact List.Sublist.refl []
  | cons a rest ih =>
    simp only [distinctBy]
    split
    · exact (ih seen).cons a
    · exact (ih _).cons_cons a

/-- Operations on finished rows only leave rows out. -/
theorem Operation.onAllRows_sublist {α : Type} {shape : α → Record} {os : List Operation} {rows finished : List α}
    (h : onAllRows shape os rows = .ok finished) : finished.Sublist rows := by
  induction os generalizing rows with
  | nil =>
    obtain rfl := Except.ok.inj h
    exact List.Sublist.refl rows
  | cons o rest ih =>
    obtain ⟨between, hbetween, hrest⟩ := Outcome.bind_eq_ok_iff.mp h
    refine (ih hrest).trans ?_
    obtain ⟨kind, _, hkind⟩ := Outcome.bind_eq_ok_iff.mp hbetween
    cases kind with
    | distinct =>
      obtain rfl := Except.ok.inj hkind
      exact distinctBy_sublist _ _ _
    | first | firstOrDefault | single | singleOrDefault =>
      obtain rfl := Except.ok.inj hkind
      exact List.take_sublist _ _
    | selectMany | skip | take | any | all | reverse =>
      obtain rfl := Except.ok.inj hkind
      exact List.Sublist.refl rows

namespace Query

/-- The stages of an ungrouped query. -/
structure Stages where
  /-- The binding of the answer. -/
  binding : Binding
  /-- The predicate of the filters. -/
  predicate : Predicate
  /-- The rows that the joins make of the records that pass. -/
  joined : List Record
  /-- The rows that the operations on records make of these. -/
  worked : List Record
  /-- The keys that order the rows. -/
  keys : List SortKey

/-- The sorted and projected rows. -/
def Stages.shaped (st : Stages) : List ShapedRow :=
  (SortKey.sort st.keys st.worked).map fun r => { source := r, shaped := st.binding.project r }

/-- The stages that a query goes through in a store. -/
structure Staged (q : Query) (policy : Policy) (s : Store) (registry : Registry) (label : String)
    (schema : EntitySchema) (st : Stages) (f : Findings) : Prop where
  /-- The binding is registered. -/
  binding : registry.get? label schema.name = some st.binding
  /-- The filters are compiled. -/
  predicate : schema.columns.compileAll q.filters = .ok st.predicate
  /-- The records that pass are joined. -/
  joined : Join.allOnStore s schema q.joins ((s.recordsOf q.entity).filter st.predicate.holds)
    (s.recordsOf q.entity).length = .ok (st.joined, f.examined)
  /-- The operations on records are applied. -/
  worked : Operation.onAllRecords schema policy.maxPageSize q.operations st.joined = .ok st.worked
  /-- The keys are those of the query, turned round by an odd number of reversals. -/
  keys : ∃ reversed keys, Operation.reverses q.operations = .ok reversed ∧
    q.recordKeys s.schema? schema st.binding = .ok keys ∧ st.keys = orient reversed keys
  /-- The operations on finished rows are applied. -/
  rows : Operation.onAllRows ShapedRow.shaped q.operations st.shaped = .ok f.rows
  /-- The findings have the keys. -/
  keys_eq : f.keys = st.keys
  /-- The findings have the binding. -/
  binding_eq : f.binding = some st.binding

variable {q : Query} {policy : Policy} {registry : Registry} {label : String} {s : Store} {schema : EntitySchema}

/-- What a query that finds something has gone through. -/
theorem findings_eq_ok (hsound : s.Sound) (hschema : s.schema? q.entity = some schema) {f : Findings}
    (h : q.findings policy s registry label = .ok f) :
    ∃ predicate joined worked unsorted,
      q.bindingFor registry label schema = .ok f.binding ∧
      schema.columns.compileAll q.filters = .ok predicate ∧
      Join.allOnStore s schema q.joins ((s.recordsOf q.entity).filter predicate.holds)
        (s.recordsOf q.entity).length = .ok (joined, f.examined) ∧
      Operation.onAllRecords schema policy.maxPageSize q.operations joined = .ok worked ∧
      q.sorting s.schema? schema f.binding worked = .ok (unsorted, f.keys) ∧
      Operation.onAllRows ShapedRow.shaped q.operations
        ((SortKey.sort f.keys unsorted).map (ShapedRow.ofRecord f.binding)) = .ok f.rows := by
  obtain ⟨t, ht, rfl⟩ := Option.map_eq_some_iff.mp hschema
  have hrecords : s.recordsOf q.entity = t.records := Store.recordsOf_of_table ht
  obtain ⟨st, hst, h⟩ := Outcome.bind_eq_ok_iff.mp h
  rw [stock, Store.declaration_of_table ht] at hst
  obtain ⟨_, hdeclared, hst⟩ := Outcome.bind_eq_ok_iff.mp hst
  obtain rfl := Except.ok.inj hdeclared
  obtain ⟨binding, hbinding, hst⟩ := Outcome.bind_eq_ok_iff.mp hst
  obtain ⟨predicate, hpredicate, hst⟩ := Outcome.bind_eq_ok_iff.mp hst
  rw [Store.find_of_table (hsound.table?_name ht)] at hst
  obtain ⟨_, hfound, hst⟩ := Outcome.bind_eq_ok_iff.mp hst
  obtain rfl := Except.ok.inj hfound
  obtain ⟨⟨joined, examined⟩, hjoined, hst⟩ := Outcome.bind_eq_ok_iff.mp hst
  obtain ⟨worked, hworked, hst⟩ := Outcome.bind_eq_ok_iff.mp hst
  obtain ⟨⟨unsorted, keys⟩, hsorting, hst⟩ := Outcome.bind_eq_ok_iff.mp hst
  obtain rfl := Except.ok.inj hst
  obtain ⟨sorted, hsorted, h⟩ := Outcome.bind_eq_ok_iff.mp h
  obtain ⟨finished, hfinished, h⟩ := Outcome.bind_eq_ok_iff.mp h
  obtain rfl := Except.ok.inj h
  rw [← SortKey.sort_of_sort? (Stock.sorted_eq_ok_iff.mp hsorted)] at hfinished
  exact ⟨predicate, joined, worked, unsorted, hbinding, hpredicate, hrecords ▸ hjoined, hworked, hsorting, hfinished⟩

/-- **An ungrouped query that finds something has stages.** -/
theorem exists_stages (hsound : s.Sound) (hschema : s.schema? q.entity = some schema) (hgrouped : q.isGrouped = false)
    {f : Findings} (h : q.findings policy s registry label = .ok f) :
    ∃ st, q.Staged policy s registry label schema st f := by
  obtain ⟨predicate, joined, worked, unsorted, hbinding, hpredicate, hjoined, hworked, hsorting, hfinished⟩ :=
    findings_eq_ok hsound hschema h
  obtain ⟨b, hb, hget⟩ := exists_of_bindingFor hgrouped hbinding
  rw [hb] at hsorting hfinished
  obtain ⟨reversed, hreversed, hsorting⟩ := Outcome.bind_eq_ok_iff.mp hsorting
  obtain ⟨requested, hkeys, hsorting⟩ := Outcome.bind_eq_ok_iff.mp hsorting
  obtain ⟨rfl, hturned⟩ := Prod.mk.inj (Except.ok.inj hsorting)
  rw [← hturned] at hfinished
  exact ⟨{ binding := b, predicate, joined, worked, keys := orient reversed requested },
    { binding := hget
      predicate := hpredicate
      joined := hjoined
      worked := hworked
      keys := ⟨reversed, requested, hreversed, hkeys, rfl⟩
      rows := hfinished
      keys_eq := hturned.symm
      binding_eq := hb }⟩

end Query

/-! ## Pages of sorted rows -/

namespace Engine

open SortKey (compareRecords)

variable {f : Query.Findings} {rows : List Record} {shape : Record → Record}

/-- **Pages can be cut out of some of the sorted rows** if the keys order the rows and cursors can carry their
values. -/
theorem pageable_of_sublist
    (hsublist : f.rows.Sublist ((SortKey.sort f.keys rows).map fun r => { source := r, shaped := shape r }))
    (horders : SortKey.Orders f.keys (· ∈ rows))
    (htravels : ∀ r ∈ rows, ∀ k ∈ f.keys, (Record.value r k.field).Travels) : Pageable f := by
  have hmem : ∀ row ∈ f.rows, row.source ∈ rows := by
    intro row hrow
    obtain ⟨r, hr, rfl⟩ := List.mem_map.mp (hsublist.subset hrow)
    exact SortKey.mem_sortBy.mp hr
  have hsorted := SortKey.pairwise_sort horders
  refine ⟨⟨fun a b _ _ => SortKey.compareRecords_swap f.keys a b, ?_⟩, ?_, fun row hrow => htravels _ (hmem row hrow)⟩
  · rintro _ _ _ ⟨a, ha, rfl⟩ ⟨b, hb, rfl⟩ ⟨c, hc, rfl⟩
    exact horders.trans _ _ _ (hmem a ha) (hmem b hb) (hmem c hc)
  · exact List.Pairwise.sublist hsublist (List.pairwise_map.mpr hsorted)

/-- Rows do not tie after sorting if and only if they did not before. -/
theorem pairwise_sort_iff (keys : List SortKey) (rows : List Record) :
    (SortKey.sort keys rows).Pairwise (fun a b => compareRecords keys a b ≠ .eq) ↔
      rows.Pairwise fun a b => compareRecords keys a b ≠ .eq := by
  refine (SortKey.perm_sortBy keys id rows).pairwise_iff ?_
  intro a b hne heq
  rw [SortKey.compareRecords_swap, Ordering.swap_eq_eq] at heq
  exact hne heq

variable {e : Engine Store} {q : Query}

/-- **All sorted rows are visited** if and only if no two rows tie. Every client comes to an end, and has seen rows
in order, none of them twice. -/
theorem pagesVisit_sorted_iff (haccepts : e.policy.accepts q = true)
    (hfound : q.findings e.policy e.store e.registry Target.value.label = .ok f)
    (hrows : f.rows = (SortKey.sort f.keys rows).map fun r => { source := r, shaped := shape r })
    (horders : SortKey.Orders f.keys (· ∈ rows))
    (htravels : ∀ r ∈ rows, ∀ k ∈ f.keys, (Record.value r k.field).Travels) :
    (e.PagesVisit q (f.rows.map (q.rowItem f.binding)) ↔
        rows.Pairwise fun a b => compareRecords f.keys a b ≠ .eq) ∧
      ∀ size, e.policy.AdmitsSize size →
        ∃ items, e.Pages q size none items ∧ items.Sublist (f.rows.map (q.rowItem f.binding)) := by
  have hsublist : f.rows.Sublist ((SortKey.sort f.keys rows).map fun r => { source := r, shaped := shape r }) := by
    rw [← hrows]
  have hf := pageable_of_sublist hsublist horders htravels
  refine ⟨?_, fun size hsize => exists_pages hf haccepts hfound hsize⟩
  rw [pagesVisit_iff hf haccepts hfound, hrows, List.pairwise_map]
  exact pairwise_sort_iff f.keys rows

end Engine

end GuardedQuery
