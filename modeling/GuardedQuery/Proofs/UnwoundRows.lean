import GuardedQuery.Proofs.JoinedRows

/-!
# Pages of unwound rows

Unwinding a collection makes a row of each of its items, and all these rows keep the identity of their record. No
further key is added for them, so two rows of one record tie unless a requested key is the collection itself. Rows
that tie across the end of a page are passed over.

## Main definitions

* `Value.Within`: a value that is another one, or lies in its nested arrays.
* `Operation.Unwinds`: the fields that operations unwind.
* `Operation.Stems`: a row that comes of another one by operations.

## Main statements

* `Operation.onAllRecords_stems`: the rows that operations make of records stem from these.
* `Engine.unwound_rows_paged`: which unwound rows are visited.
-/

namespace GuardedQuery

open SortKey (compareRecords)

/-! ## Items of nested arrays -/

namespace Value

/-- A value that is another one, or lies in its nested arrays. -/
inductive Within (whole : Value) : Value → Prop
  /-- The value itself. -/
  | refl : Within whole whole
  /-- An item of an array. -/
  | item {items : List Value} {v : Value} : Within whole (.array items) → v ∈ items → Within whole v

theorem Within.trans {u v w : Value} (h : u.Within v) (h' : v.Within w) : u.Within w := by
  induction h' with
  | refl => exact h
  | item _ hmem ih => exact .item ih hmem

theorem Within.wellFormed {whole v : Value} (h : whole.Within v) (hwell : whole.WellFormed) : v.WellFormed := by
  induction h with
  | refl => exact hwell
  | item _ hmem ih => exact wellFormedItems_iff.mp ih _ hmem

theorem Within.depth_le {whole v : Value} (h : whole.Within v) : v.depth ≤ whole.depth := by
  induction h with
  | refl => exact le_rfl
  | item _ hmem ih =>
    have hitems := depthItems_le_iff.mp le_rfl _ hmem
    rw [depth] at ih
    omega

end Value

/-- The type of what lies at the bottom of nested arrays. -/
def FieldType.innermost : FieldType → FieldType
  | array element => element.innermost
  | t => t

/-- What lies in nested arrays of a type has a type with the same bottom. -/
theorem Value.Within.conforms {whole v : Value} (h : whole.Within v) {t : FieldType}
    (hconforms : t.conforms whole = true) : ∃ u : FieldType, u.innermost = t.innermost ∧ u.conforms v = true := by
  induction h with
  | refl => exact ⟨t, rfl, hconforms⟩
  | item _ hmem ih =>
    obtain ⟨u, hbottom, hu⟩ := ih
    cases u with
    | scalar type => cases type <;> simp [FieldType.conforms, ScalarType.conforms, isNull, asInt64?, asBinary64?] at hu
    | object fields => simp [FieldType.conforms] at hu
    | array element =>
      rw [FieldType.conforms, List.all_eq_true] at hu
      exact ⟨element, hbottom, hu _ hmem⟩

/-- What lies in nested arrays that do not end in floats is orderly. -/
theorem FieldType.orderly_of_within {t : FieldType} (ht : t.innermost ≠ .scalar .float) {whole v : Value}
    (h : whole.Within v) (hwell : whole.WellFormed) (hconforms : t.conforms whole = true) (hdepth : whole.depth ≤ 125) :
    v.Orderly := by
  obtain ⟨u, hbottom, hu⟩ := h.conforms hconforms
  refine orderly_of_conforms ?_ (h.wellFormed hwell) hu (le_trans h.depth_le hdepth)
  rintro rfl
  exact ht hbottom.symm

/-- What lies in a column of a sound table is orderly unless the column ends in floats or is too deep. -/
theorem Table.Sound.orderly_within {t : Table} (h : t.Sound) {r : Record} (hr : r ∈ t.records)
    (hwell : ∀ m ∈ r, m.2.WellFormed) {field : String}
    (hfloat : ∀ type, t.schema.fieldType? field = some type → type.innermost ≠ .scalar .float)
    (hdepth : (Record.value r field).depth ≤ 125) {v : Value} (hv : (Record.value r field).Within v) : v.Orderly := by
  cases hget : Dict.get? r field with
  | none =>
    rw [Record.value_of_get?_eq_none hget] at hv hdepth
    have hstring : FieldType.innermost (.scalar .string) ≠ .scalar .float := by simp [FieldType.innermost]
    exact FieldType.orderly_of_within hstring hv trivial (FieldType.conforms_null _) hdepth
  | some w =>
    obtain ⟨declared, hfield, hconforms⟩ := h.conforming r hr field w hget
    rw [Record.value_of_get? hget] at hv hdepth
    exact FieldType.orderly_of_within (hfloat declared hfield) hv (hwell (field, w) (Dict.mem_of_get? hget)) hconforms
      hdepth

/-! ## Rows that stem from rows -/

namespace Operation

/-- The fields that operations unwind. -/
def Unwinds (os : List Operation) (field : String) : Prop :=
  ∃ o ∈ os, OperationKind.parse? o.kind = some .selectMany ∧ o.textParameter? "field" = some field

/-- A row that comes of another one by operations. -/
structure Stems (os : List Operation) (r r' : Record) : Prop where
  /-- What is not unwound is as it was. -/
  kept : ∀ f, ¬Unwinds os f → Record.value r' f = Record.value r f
  /-- What is unwound is taken out of what was there. -/
  within : ∀ f, (Record.value r f).Within (Record.value r' f)

theorem Stems.refl (os : List Operation) (r : Record) : Stems os r r := ⟨fun _ _ => rfl, fun _ => .refl⟩

theorem Stems.cons {o : Operation} {rest : List Operation} {r₁ r₂ r₃ : Record} (h : Stems [o] r₁ r₂)
    (h' : Stems rest r₂ r₃) : Stems (o :: rest) r₁ r₃ where
  kept := by
    intro f hf
    have hparts : ∀ os, os ⊆ o :: rest → ¬Unwinds os f := fun os hsub ⟨x, hx, hunwinds⟩ => hf ⟨x, hsub hx, hunwinds⟩
    rw [h'.kept f (hparts rest (List.subset_cons_self o rest)), h.kept f (hparts [o] (by simp))]
  within := fun f => (h.within f).trans (h'.within f)

/-- The rows of a collection's items stem from its row. -/
theorem stems_unwind {o : Operation} (hkind : OperationKind.parse? o.kind = some .selectMany) {field : String}
    (hfield : o.textParameter? "field" = some field) {r r' : Record} (h : r' ∈ unwind field r) : Stems [o] r r' := by
  have hunwinds : Unwinds [o] field := ⟨o, List.mem_singleton_self o, hkind, hfield⟩
  rw [unwind] at h
  split at h
  · rename_i items hget
    obtain ⟨item, hitem, rfl⟩ := List.mem_map.mp h
    constructor
    · intro f hf
      have hne : field ≠ f := fun heq => hf (heq ▸ hunwinds)
      rw [Record.value, Record.value, Dict.get?_insert, if_neg hne]
    · intro f
      by_cases hsame : field = f
      · subst hsame
        rw [Record.value, Record.value, Dict.get?_insert, if_pos rfl, hget]
        exact .item .refl hitem
      · rw [Record.value, Record.value, Dict.get?_insert, if_neg hsame]
        exact .refl
  · exact absurd h List.not_mem_nil

/-- **The rows that an operation makes of records stem from these.** -/
theorem onRecords_stems {o : Operation} {schema : EntitySchema} {maxTake : Nat} {rows rows' : List Record}
    (h : o.onRecords schema maxTake rows = .ok rows') {r' : Record} (hr' : r' ∈ rows') :
    ∃ r ∈ rows, Stems [o] r r' := by
  have hsame : rows' ⊆ rows → ∃ r ∈ rows, Stems [o] r r' := fun hsub => ⟨r', hsub hr', .refl [o] r'⟩
  obtain ⟨kind, hkind, h⟩ := Outcome.bind_eq_ok_iff.mp h
  cases kind with
  | selectMany =>
    obtain ⟨field, hfield, h⟩ := Outcome.bind_eq_ok_iff.mp h
    obtain rfl := Except.ok.inj h
    obtain ⟨r, hr, hunwound⟩ := List.mem_flatMap.mp hr'
    exact ⟨r, hr, stems_unwind (kindOf_eq_ok_iff.mp hkind) (unwoundField_eq_ok hfield).1 hunwound⟩
  | distinct =>
    obtain rfl := Except.ok.inj h
    exact hsame (distinctBy_sublist id [] rows).subset
  | skip =>
    obtain ⟨n, _, h⟩ := Outcome.bind_eq_ok_iff.mp h
    obtain rfl := Except.ok.inj h
    exact hsame (List.drop_subset n rows)
  | take =>
    obtain ⟨n, _, h⟩ := Outcome.bind_eq_ok_iff.mp h
    obtain rfl := Except.ok.inj h
    exact hsame (List.take_subset _ rows)
  | any | all =>
    obtain ⟨p, _, h⟩ := Outcome.bind_eq_ok_iff.mp h
    obtain rfl := Except.ok.inj h
    exact hsame (List.filter_subset_self _)
  | reverse =>
    obtain rfl := Except.ok.inj h
    exact hsame (List.reverse_perm rows).subset
  | first | firstOrDefault | single | singleOrDefault =>
    obtain rfl := Except.ok.inj h
    exact hsame (List.Subset.refl rows)

/-- **The rows that operations make of records stem from these.** -/
theorem onAllRecords_stems {os : List Operation} {schema : EntitySchema} {maxTake : Nat} {rows rows' : List Record}
    (h : onAllRecords schema maxTake os rows = .ok rows') {r' : Record} (hr' : r' ∈ rows') :
    ∃ r ∈ rows, Stems os r r' := by
  induction os generalizing rows with
  | nil =>
    obtain rfl := Except.ok.inj h
    exact ⟨r', hr', .refl [] r'⟩
  | cons o rest ih =>
    obtain ⟨between, hfirst, hrest⟩ := Outcome.bind_eq_ok_iff.mp h
    obtain ⟨r₁, hr₁, hlater⟩ := ih hrest
    obtain ⟨r, hr, hearlier⟩ := onRecords_stems hfirst hr₁
    exact ⟨r, hr, hearlier.cons hlater⟩

/-- Operations that succeed unwind declared collections only. -/
theorem exists_array_of_unwinds {os : List Operation} {schema : EntitySchema} {maxTake : Nat}
    {rows rows' : List Record} (h : onAllRecords schema maxTake os rows = .ok rows') {field : String}
    (hunwinds : Unwinds os field) : ∃ t, schema.fieldType? field = some (.array t) := by
  induction os generalizing rows with
  | nil =>
    obtain ⟨o, ho, _⟩ := hunwinds
    exact absurd ho List.not_mem_nil
  | cons o rest ih =>
    obtain ⟨between, hfirst, hrest⟩ := Outcome.bind_eq_ok_iff.mp h
    obtain ⟨x, hx, hparse, htext⟩ := hunwinds
    rcases List.mem_cons.mp hx with rfl | hx
    · obtain ⟨kind, hkind, hfirst⟩ := Outcome.bind_eq_ok_iff.mp hfirst
      rw [kindOf, hparse] at hkind
      obtain rfl := Except.ok.inj hkind
      obtain ⟨name, hname, _⟩ := Outcome.bind_eq_ok_iff.mp hfirst
      obtain ⟨htext', t, ht⟩ := unwoundField_eq_ok hname
      obtain rfl := Option.some.inj (htext.symm.trans htext')
      exact ⟨t, ht⟩
    · exact ih hrest ⟨x, hx, hparse, htext⟩

end Operation

/-! ## What pages of unwound rows visit -/

namespace Query.Staged

variable {q : Query} {policy : Policy} {s : Store} {registry : Registry} {label : String} {t : Table} {st : Stages}
  {f : Findings} (hst : q.Staged policy s registry label t.schema st f) (hjoins : q.joins = [])
  (ht : s.table? q.entity = some t) (hidentity : t.schema.HasPlainIdentity)
include hst hjoins

/-- The keys of a query without joins are the requested ones and the identity. -/
theorem key_of_mem {k : SortKey} (hidentity : t.schema.HasPlainIdentity) (hk : k ∈ f.keys) :
    (k.field = t.schema.identity ∨ ∃ item ∈ q.sort, k.field = item.field) ∧
      (k.field = t.schema.identity → k.temporal = false) := by
  obtain ⟨reversed, keys, _, hkeys, hturned⟩ := hst.keys
  rw [hst.keys_eq, hturned] at hk
  obtain ⟨k', hk', hfield, htemporal⟩ := mem_orient hk
  rw [hfield, htemporal]
  rcases mem_recordKeys hkeys hk' with ⟨item, hitem, rfl⟩ | rfl | ⟨j, hj, _⟩
  · refine ⟨.inr ⟨item, hitem, rfl⟩, fun hsame => ?_⟩
    have hitemField : item.field = t.schema.identity := hsame
    simp only [requestedKey, SortKey.typed, hitemField, hidentity.not_datetime]
  · exact ⟨.inl rfl, fun _ => hidentity.not_datetime⟩
  · rw [hjoins] at hj
    exact absurd hj List.not_mem_nil

omit hjoins in
/-- The identity has a key. -/
theorem exists_identity_key : ∃ k ∈ f.keys, k.field = t.schema.identity := by
  obtain ⟨reversed, keys, _, hkeys, hturned⟩ := hst.keys
  obtain ⟨k, hk, hfield⟩ := exists_mem_recordKeys hkeys (List.mem_cons_self : t.schema.identity ∈ _ :: _)
  obtain ⟨k', hk', hsame⟩ := exists_mem_orient reversed hk
  exact ⟨k', by rwa [hst.keys_eq, hturned], hsame.trans hfield⟩

include ht

/-- The rows that the operations make stem from records of the table. -/
theorem exists_source {r : Record} (hr : r ∈ st.worked) :
    ∃ source ∈ t.records, Operation.Stems q.operations source r := by
  have hrecords : s.recordsOf q.entity = t.records := Store.recordsOf_of_table ht
  have hjoined := hst.joined
  rw [hjoins, hrecords] at hjoined
  obtain ⟨hpassing, _⟩ := Prod.mk.inj (Except.ok.inj hjoined)
  obtain ⟨source, hsource, hstem⟩ := Operation.onAllRecords_stems hst.worked hr
  rw [← hpassing] at hsource
  exact ⟨source, List.mem_of_mem_filter hsource, hstem⟩

include hidentity

omit hjoins ht in
/-- The identity is not unwound. -/
theorem identity_kept : ¬Operation.Unwinds q.operations t.schema.identity := by
  intro hunwinds
  obtain ⟨type, _, hdeclared⟩ := hidentity
  obtain ⟨element, harray⟩ := Operation.exists_array_of_unwinds hst.worked hunwinds
  rw [hdeclared] at harray
  exact absurd harray nofun

/-- The identities of the rows are plain. -/
theorem plain_identity (hreachable : s.Reachable) {r : Record} (hr : r ∈ st.worked) :
    (Record.value r t.schema.identity).Plain := by
  obtain ⟨source, hsource, hstem⟩ := hst.exists_source hjoins ht hr
  rw [hstem.kept _ (hst.identity_kept hidentity)]
  exact (hreachable.sound _ t ht).1.plain_identity hidentity hsource (hreachable.wellFormed _ t ht _ hsource)

/-- Values of the keys are orderly. -/
theorem orderly_worked (hreachable : s.Reachable)
    (hsort : ∀ item ∈ q.sort, t.schema.fieldType? item.field ≠ some (.scalar .float))
    (hunwound : ∀ item ∈ q.sort, Operation.Unwinds q.operations item.field →
      ∀ type, t.schema.fieldType? item.field = some type → type.innermost ≠ .scalar .float)
    (hdepth : ∀ r ∈ t.records, ∀ item ∈ q.sort, (Record.value r item.field).depth ≤ 125) {r : Record}
    (hr : r ∈ st.worked) {k : SortKey} (hk : k ∈ f.keys) : (Record.value r k.field).Orderly := by
  obtain ⟨source, hsource, hstem⟩ := hst.exists_source hjoins ht hr
  rcases (hst.key_of_mem hjoins hidentity hk).1 with hfield | ⟨item, hitem, hfield⟩
  · rw [hfield]
    exact (hst.plain_identity hjoins ht hidentity hreachable hr).orderly
  · have hsound := (hreachable.sound _ t ht).1
    have hwell := hreachable.wellFormed _ t ht _ hsource
    rw [hfield]
    by_cases hunwinds : Operation.Unwinds q.operations item.field
    · exact hsound.orderly_within hsource hwell (hunwound item hitem hunwinds) (hdepth source hsource item hitem)
        (hstem.within item.field)
    · rw [hstem.kept _ hunwinds]
      exact hsound.orderly_value hsource hwell (hsort item hitem) (hdepth source hsource item hitem)

/-- If no requested key is unwound, rows tie if and only if they come of one record. -/
theorem tie_iff (hreachable : s.Reachable)
    (hkept : ∀ item ∈ q.sort, ¬Operation.Unwinds q.operations item.field) {a b : Record} (ha : a ∈ st.worked)
    (hb : b ∈ st.worked) :
    compareRecords f.keys a b = .eq ↔ Record.value a t.schema.identity = Record.value b t.schema.identity := by
  constructor
  · intro htie
    obtain ⟨k, hk, hfield⟩ := hst.exists_identity_key
    have htemporal := (hst.key_of_mem hjoins hidentity hk).2 hfield
    have hplain := fun {r} (hr : r ∈ st.worked) => hst.plain_identity hjoins ht hidentity hreachable hr
    rw [← hfield] at hplain ⊢
    exact SortKey.value_eq_of_compareRecords htie hk htemporal (hplain ha) (hplain hb)
  · intro hsame
    obtain ⟨source, hsource, hstem⟩ := hst.exists_source hjoins ht ha
    obtain ⟨source', hsource', hstem'⟩ := hst.exists_source hjoins ht hb
    have hnot := hst.identity_kept hidentity
    rw [hstem.kept _ hnot, hstem'.kept _ hnot] at hsame
    obtain rfl := (hreachable.sound _ t ht).1.eq_of_identity hsource hsource' (by rw [hsame])
    have hvalues : ∀ k ∈ f.keys, Record.value b k.field = Record.value a k.field := by
      intro k hk
      have hunwound : ¬Operation.Unwinds q.operations k.field := by
        rcases (hst.key_of_mem hjoins hidentity hk).1 with hfield | ⟨item, hitem, hfield⟩
        · exact hfield ▸ hnot
        · exact hfield ▸ hkept item hitem
      rw [hstem.kept _ hunwound, hstem'.kept _ hunwound]
    rw [SortKey.compareRecords_congr (fun _ _ => rfl) hvalues, SortKey.compareRecords_self]

end Query.Staged

namespace Engine

variable {e : Engine Store} {q : Query} {schema : EntitySchema}

/-- **Which unwound rows pages visit.** Take an ungrouped query without joins whose requested keys are no floats, also
where they are unwound, and which an engine answers. Whatever page size a client asks for, it comes to an end and has
seen rows in order, none of them twice. It has seen all of them for every page size if and only if no two of them tie.
If no requested key is unwound, all rows are seen only if no record has two of them. -/
theorem unwound_rows_paged (hreachable : e.store.Reachable) (hidentity : schema.HasPlainIdentity)
    (hschema : e.store.schema? q.entity = some schema) (hgrouped : q.isGrouped = false) (hjoins : q.joins = [])
    (hsort : ∀ item ∈ q.sort, schema.fieldType? item.field ≠ some (.scalar .float))
    (hunwound : ∀ item ∈ q.sort, Operation.Unwinds q.operations item.field →
      ∀ type, schema.fieldType? item.field = some type → type.innermost ≠ .scalar .float)
    (hdepth : ∀ r ∈ e.store.recordsOf q.entity, ∀ item ∈ q.sort, (Record.value r item.field).depth ≤ 125)
    {c : Circumstances} {first : Response Value} (hfirst : (e.execute Target.value q false c).1 = .ok first) :
    ∃ (st : Query.Stages) (f : Query.Findings),
      q.Staged e.policy e.store e.registry Target.value.label schema st f ∧
      f.rows.Pairwise (fun a b => compareRecords f.keys a.source b.source ≠ .gt) ∧
      (∀ size, e.policy.AdmitsSize size →
        ∃ items, e.Pages q size none items ∧ items.Sublist (f.rows.map (q.rowItem f.binding))) ∧
      (e.PagesVisit q (f.rows.map (q.rowItem f.binding)) ↔
        f.rows.Pairwise fun a b => compareRecords f.keys a.source b.source ≠ .eq) ∧
      ((∀ item ∈ q.sort, ¬Operation.Unwinds q.operations item.field) →
        (e.PagesVisit q (f.rows.map (q.rowItem f.binding)) ↔
          (f.rows.map fun row => Record.value row.source schema.identity).Nodup)) := by
  obtain ⟨haccepts, hresult⟩ := execute_eq_ok_iff.mp hfirst
  obtain ⟨f, hfound, _⟩ := Outcome.bind_eq_ok_iff.mp hresult
  obtain ⟨st, hst⟩ := Query.exists_stages hreachable.sound hschema hgrouped hfound
  obtain ⟨t, ht, rfl⟩ := Option.map_eq_some_iff.mp hschema
  have hrecords : e.store.recordsOf q.entity = t.records := Store.recordsOf_of_table ht
  rw [hrecords] at hdepth
  have horderly : ∀ r ∈ st.worked, ∀ k ∈ f.keys, (Record.value r k.field).Orderly := fun r hr k hk =>
    hst.orderly_worked hjoins ht hidentity hreachable hsort hunwound hdepth hr hk
  have hsublist : f.rows.Sublist
      ((SortKey.sort f.keys st.worked).map fun r => { source := r, shaped := st.binding.project r }) := by
    rw [hst.keys_eq]
    exact Operation.onAllRows_sublist hst.rows
  have hpageable : Pageable f := pageable_of_sublist hsublist
    (SortKey.orders_exact fun r hr k hk => (horderly r hr k hk).exact) fun r hr k hk => (horderly r hr k hk).travels
  have hworked : ∀ row ∈ f.rows, row.source ∈ st.worked := by
    intro row hrow
    obtain ⟨r, hr, rfl⟩ := List.mem_map.mp (hsublist.subset hrow)
    exact SortKey.mem_sortBy.mp hr
  have hvisit := pagesVisit_iff hpageable haccepts hfound
  refine ⟨st, f, hst, hpageable.sorted, fun size hsize => exists_pages hpageable haccepts hfound hsize, hvisit,
    fun hkept => ?_⟩
  rw [hvisit, List.Nodup, List.pairwise_map]
  refine List.Pairwise.iff_of_mem fun {a b} ha hb => ?_
  rw [ne_eq, hst.tie_iff hjoins ht hidentity hreachable hkept (hworked a ha) (hworked b hb)]

/-! ## Two labels of one note -/

/-- Notes with labels. -/
def noteSchema : EntitySchema where
  name := "Note"
  fields := [("Id", .scalar .int), ("Labels", .array (.scalar .string))]

/-- A note with two labels. -/
def noteEntities : List EntityData :=
  [{ schema := noteSchema, records := [[("Id", .int 1), ("Labels", .array [.string "a", .string "b"])]] }]

/-- An engine that shows notes with their labels. -/
def noteEngine : Engine Store where
  policy := { entities := [("note", { name := "Note", selectable := ["Id", "Labels"] })] }
  store := .ofEntities noteEntities
  registry := { entries := [{ entity := "note", target := "<value>", binding := .ofFields ["Id", "Labels"] }] }

/-- The labels of all notes. -/
def labelQuery : Query where
  entity := "Note"
  operations := [{ kind := "SelectMany", parameters := [("field", .string "Labels")] }]

theorem noteEntities_wellFormed : ∀ data ∈ noteEntities, data.WellFormed := by decide +kernel

theorem noteEngine_schema : noteEngine.store.schema? labelQuery.entity = some noteSchema :=
  Store.schema?_ofEntities noteEntities_wellFormed (by simp [noteEntities]) (by decide +kernel)

/-- Both labels are found, and pages of a single row do not show the second one. -/
theorem unwound_rows_paged_note :
    ∃ all, all =
        [Value.object [("Id", .int 1), ("Labels", .string "a")],
          .object [("Id", .int 1), ("Labels", .string "b")]] ∧
      ¬noteEngine.PagesVisit labelQuery all := by
  have hfirst : (noteEngine.execute Target.value labelQuery false {}).1 = .ok
      { items := [.object [("Id", .int 1), ("Labels", .string "a")], .object [("Id", .int 1), ("Labels", .string "b")]]
        size := 20, nextCursor := none, totalCount := none, rowsExamined := 1 } :=
    execute_eq_ok_iff.mpr ⟨by decide +kernel, by decide +kernel⟩
  obtain ⟨st, f, hst, _, _, _, hvisit⟩ :=
    unwound_rows_paged (Store.reachable_ofEntities noteEntities_wellFormed) ⟨.int, by decide, rfl⟩ noteEngine_schema
      rfl rfl (by simp [labelQuery]) (by simp [labelQuery]) (by simp [labelQuery]) hfirst
  have hregistered : noteEngine.registry.get? Target.value.label noteSchema.name =
      some (.ofFields ["Id", "Labels"]) := by decide +kernel
  have hbinding : st.binding = .ofFields ["Id", "Labels"] := Option.some.inj (hst.binding.symm.trans hregistered)
  have hpredicate : st.predicate = .always := (Except.ok.inj hst.predicate).symm
  have hpassing := (Prod.mk.inj (Except.ok.inj hst.joined)).1
  have hlabels : Operation.onAllRecords noteSchema noteEngine.policy.maxPageSize labelQuery.operations
      ((noteEngine.store.recordsOf labelQuery.entity).filter Predicate.always.holds) =
        .ok [[("Id", .int 1), ("Labels", .string "a")], [("Id", .int 1), ("Labels", .string "b")]] := by
    decide +kernel
  have hworked := hst.worked
  rw [← hpassing, hpredicate, hlabels] at hworked
  have hkind : Operation.kindOf { kind := "SelectMany", parameters := [("field", .string "Labels")] } =
      .ok .selectMany := by decide +kernel
  obtain ⟨reversed, keys, hreversed, hkeys, hturned⟩ := hst.keys
  have hforward : Operation.reverses labelQuery.operations = .ok false := by decide +kernel
  obtain rfl := Except.ok.inj (hforward.symm.trans hreversed)
  have hone : labelQuery.recordKeys noteEngine.store.schema? noteSchema (.ofFields ["Id", "Labels"]) =
      .ok [{ field := "Id" }] := by decide +kernel
  rw [hbinding] at hkeys
  obtain rfl := Except.ok.inj (hone.symm.trans hkeys)
  have hrows : f.rows = (SortKey.sort (Query.orient false [{ field := "Id" }])
      [[("Id", .int 1), ("Labels", .string "a")], [("Id", .int 1), ("Labels", .string "b")]]).map
        fun r => { source := r, shaped := (Binding.ofFields ["Id", "Labels"]).project r } := by
    have hfinished := hst.rows
    simp only [labelQuery, Operation.onAllRows, Operation.onRows, hkind] at hfinished
    rw [← Except.ok.inj hfinished, Query.Stages.shaped, hturned, ← Except.ok.inj hworked, hbinding]
  refine ⟨f.rows.map (labelQuery.rowItem f.binding), ?_, ?_⟩
  · rw [hst.binding_eq, hbinding, hrows, List.map_map]
    decide +kernel
  · rw [hvisit (by simp [labelQuery]), hrows, List.map_map]
    decide +kernel

end Engine

end GuardedQuery
