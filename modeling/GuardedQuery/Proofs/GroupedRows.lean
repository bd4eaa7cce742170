import GuardedQuery.Proofs.Groups
import GuardedQuery.Proofs.UnwoundRows

/-!
# Pages of group rows

The rows of a grouped query are those of the groups that pass the conditions on groups. They are ordered by the
requested keys and then by the group fields, all turned round by an odd number of reversals; a wish for a single row
keeps the first ones. As long as the keys put the rows into a strict order and cursors can carry their values, pages
of every size show all of them. This is so if the group fields are declared with types whose values are told apart by
their order, and no requested key is a float.

## Main definitions

* `Query.GroupStages`, `Query.GroupStaged`: the stages of a grouped query.
* `Query.GroupStages.Ordered`: the keys put the rows into a strict order.
* `Query.GroupsPlainly`: a query that groups by plain fields and sorts by no floats.
* `Operation.kept`: the number of rows that operations on finished rows keep.

## Main statements

* `Operation.onAllRows_eq_take`: operations on rows with different texts keep the first ones.
* `Query.exists_groupStages`: a grouped query that finds something has stages.
* `Query.GroupStaged.ordered`: plain grouping puts the rows into a strict order.
* `Engine.group_rows_paged`: which group rows are visited.
-/

namespace GuardedQuery

open SortKey (compareRecords)

/-! ## Finished rows with different texts -/

namespace Operation

/-- The greatest number of rows that a wish for a single row keeps. -/
def cap? (o : Operation) : Option Nat :=
  match OperationKind.parse? o.kind with
  | some .first | some .firstOrDefault => some 1
  | some .single | some .singleOrDefault => some 2
  | _ => none

/-- The number of rows that operations on finished rows keep of `n` rows. -/
def kept (os : List Operation) (n : Nat) : Nat := (os.filterMap cap?).foldl min n

theorem kept_of_uncapped {os : List Operation} (h : ∀ o ∈ os, o.cap? = none) (n : Nat) : kept os n = n := by
  rw [kept, List.filterMap_eq_nil_iff.mpr h, List.foldl_nil]

theorem foldl_min_le (caps : List Nat) (n : Nat) : caps.foldl min n ≤ n := by
  induction caps generalizing n with
  | nil => exact le_rfl
  | cons cap rest ih => exact le_trans (ih (min n cap)) (min_le_left n cap)

theorem distinctBy_of_nodup {α : Type} {shape : α → Record} {rows : List α} (seen : List String)
    (hseen : ∀ a ∈ rows, (Value.object (shape a)).toText ∉ seen)
    (h : (rows.map fun a => (Value.object (shape a)).toText).Nodup) : distinctBy shape seen rows = rows := by
  induction rows generalizing seen with
  | nil => rfl
  | cons a rest ih =>
    obtain ⟨hfirst, hseenRest⟩ := List.forall_mem_cons.mp hseen
    rw [List.map_cons, List.nodup_cons] at h
    have hnew : seen.contains (Value.object (shape a)).toText = false := by simpa using hfirst
    rw [distinctBy, hnew, if_neg Bool.false_ne_true, ih _ ?_ h.2]
    intro b hb
    rw [List.mem_cons, not_or]
    exact ⟨fun heq => h.1 (heq ▸ List.mem_map_of_mem hb), hseenRest b hb⟩

/-- **Operations on finished rows with different texts keep the first ones.** -/
theorem onAllRows_eq_take {α : Type} {shape : α → Record} {os : List Operation} {rows finished : List α}
    (hnodup : (rows.map fun a => (Value.object (shape a)).toText).Nodup)
    (h : onAllRows shape os rows = .ok finished) : finished = rows.take (kept os rows.length) := by
  induction os generalizing rows with
  | nil =>
    obtain rfl := Except.ok.inj h
    rw [kept, List.filterMap_nil, List.foldl_nil, List.take_length]
  | cons o rest ih =>
    obtain ⟨between, hbetween, hrest⟩ := Outcome.bind_eq_ok_iff.mp h
    obtain ⟨kind, hkind, hbetween⟩ := Outcome.bind_eq_ok_iff.mp hbetween
    have hparse : OperationKind.parse? o.kind = some kind := kindOf_eq_ok_iff.mp hkind
    -- A wish for a single row keeps some first rows, and the other operations keep all rows.
    have hkept : o.cap? = none → between = rows → finished = rows.take (kept (o :: rest) rows.length) := by
      rintro hcap rfl
      rw [kept, List.filterMap_cons_none hcap]
      exact ih hnodup hrest
    have hcapped : ∀ cap, o.cap? = some cap → between = rows.take cap →
        finished = rows.take (kept (o :: rest) rows.length) := by
      rintro cap hcap rfl
      have hfirst := ih (hnodup.sublist ((List.take_sublist cap rows).map _)) hrest
      have hle := foldl_min_le (rest.filterMap cap?) (min rows.length cap)
      rw [hfirst, kept, kept, List.filterMap_cons_some hcap, List.foldl_cons, List.length_take, Nat.min_comm cap,
        List.take_take, min_eq_left (le_trans hle (min_le_right _ _))]
    cases kind with
    | distinct =>
      refine hkept (by rw [cap?, hparse]) ?_
      rw [← Except.ok.inj hbetween]
      exact distinctBy_of_nodup [] (fun _ _ => List.not_mem_nil) hnodup
    | first | firstOrDefault => exact hcapped 1 (by rw [cap?, hparse]) (Except.ok.inj hbetween).symm
    | single | singleOrDefault => exact hcapped 2 (by rw [cap?, hparse]) (Except.ok.inj hbetween).symm
    | selectMany | skip | take | any | all | reverse =>
      exact hkept (by rw [cap?, hparse]) (Except.ok.inj hbetween).symm

end Operation

/-! ## The stages of a grouped query -/

namespace Query

/-- The stages of a grouped query. -/
structure GroupStages where
  /-- The predicate of the filters. -/
  predicate : Predicate
  /-- The rows that the joins make of the records that pass. -/
  joined : List Record
  /-- The rows that the operations on records make of these. -/
  worked : List Record
  /-- The group fields. -/
  fields : List String
  /-- The computed columns. -/
  columns : List Column
  /-- The types of the group fields and of the computed columns. -/
  types : Dict FieldType
  /-- The predicate of the conditions on groups. -/
  having : Predicate
  /-- The rows of all groups. -/
  all : List Record
  /-- The keys that order the rows. -/
  keys : List SortKey

namespace GroupStages

/-- The rows of the groups that pass the conditions. -/
def rows (st : GroupStages) : List Record := st.all.filter st.having.holds

/-- The sorted rows. -/
def sorted (st : GroupStages) : List Record := SortKey.sort st.keys st.rows

/-- The keys put the rows into a strict order, and cursors can carry their values. -/
structure Ordered (st : GroupStages) : Prop where
  /-- The order is transitive. -/
  orders : SortKey.Orders st.keys (· ∈ st.rows)
  /-- No two rows tie. -/
  apart : st.rows.Pairwise fun a b => compareRecords st.keys a b ≠ .eq
  /-- Cursors can carry the values of the keys. -/
  travels : ∀ r ∈ st.rows, ∀ k ∈ st.keys, (Record.value r k.field).Travels

end GroupStages

/-- The stages that a grouped query goes through in a store. -/
structure GroupStaged (q : Query) (policy : Policy) (s : Store) (schema : EntitySchema) (st : GroupStages) : Prop where
  /-- The filters are compiled. -/
  predicate : schema.columns.compileAll q.filters = .ok st.predicate
  /-- The records that pass are joined. -/
  joined : ∃ examined, Join.allOnStore s schema q.joins ((s.recordsOf q.entity).filter st.predicate.holds)
    (s.recordsOf q.entity).length = .ok (st.joined, examined)
  /-- The operations on records are applied. -/
  worked : Operation.onAllRecords schema policy.maxPageSize q.operations st.joined = .ok st.worked
  /-- The conditions on groups are compiled. -/
  grouping : ∃ g, q.groupBy = some g ∧ g.fields = st.fields ∧
    Columns.compileAll { scope := s!"{schema.name} groups", fields := st.types } g.having = .ok st.having
  /-- The columns are resolved. -/
  columns : q.aggregations.mapM (Column.resolve schema) = .ok st.columns
  /-- The types are those of the group fields and of the columns. -/
  types : ∃ fieldTypes, groupFieldTypes schema st.fields = .ok fieldTypes ∧
    st.types = Dict.ofList (fieldTypes ++ st.columns.map fun c => (c.output, c.type))
  /-- Every group has a row. -/
  all : (Group.ofRecords st.fields st.worked).mapM (Group.row st.fields st.columns) = .ok st.all
  /-- The keys are the requested ones and the group fields, turned round by an odd number of reversals. -/
  keys : ∃ reversed keys, Operation.reverses q.operations = .ok reversed ∧
    groupKeys st.types q.sort st.fields = .ok keys ∧ st.keys = orient reversed keys

variable {q : Query} {policy : Policy} {registry : Registry} {label : String} {s : Store} {schema : EntitySchema}

/-- **A grouped query that finds something has stages.** -/
theorem exists_groupStages (hsound : s.Sound) (hschema : s.schema? q.entity = some schema)
    (hgrouped : q.isGrouped = true) {f : Findings} (h : q.findings policy s registry label = .ok f) :
    ∃ st, q.GroupStaged policy s schema st ∧ f.keys = st.keys ∧ f.binding = none ∧
      Operation.onAllRows ShapedRow.shaped q.operations (st.sorted.map fun r => { source := r, shaped := r }) =
        .ok f.rows := by
  obtain ⟨predicate, joined, worked, unsorted, hbinding, hpredicate, hjoined, hworked, hsorting, hfinished⟩ :=
    findings_eq_ok hsound hschema h
  rcases bindingFor_eq_ok_iff.mp hbinding with ⟨_, hnone⟩ | ⟨hfalse, _⟩
  · rw [hnone] at hsorting hfinished
    obtain ⟨reversed, hreversed, hsorting⟩ := Outcome.bind_eq_ok_iff.mp hsorting
    obtain ⟨⟨rows, requested⟩, hgroups, hsorting⟩ := Outcome.bind_eq_ok_iff.mp hsorting
    obtain ⟨rfl, hturned⟩ := Prod.mk.inj (Except.ok.inj hsorting)
    rw [← hturned] at hfinished
    rw [groupRows] at hgroups
    cases hgrouping : q.groupBy with
    | none =>
      rw [hgrouping] at hgroups
      simp at hgroups
    | some g =>
      rw [hgrouping] at hgroups
      obtain ⟨fieldTypes, hfieldTypes, hgroups⟩ := Outcome.bind_eq_ok_iff.mp hgroups
      obtain ⟨columns, hcolumns, hgroups⟩ := Outcome.bind_eq_ok_iff.mp hgroups
      obtain ⟨having, hhaving, hgroups⟩ := Outcome.bind_eq_ok_iff.mp hgroups
      obtain ⟨passing, hpassing, hgroups⟩ := Outcome.bind_eq_ok_iff.mp hgroups
      obtain ⟨requestedKeys, hkeys, hgroups⟩ := Outcome.bind_eq_ok_iff.mp hgroups
      obtain ⟨rfl, rfl⟩ := Prod.mk.inj (Except.ok.inj hgroups)
      obtain ⟨all, hall, rfl⟩ := Group.rows_eq_ok_iff.mp hpassing
      exact ⟨{ predicate, joined, worked, fields := g.fields, columns, having, all
               types := Dict.ofList (fieldTypes ++ columns.map fun c => (c.output, c.type))
               keys := orient reversed requestedKeys },
        { predicate := hpredicate
          joined := ⟨f.examined, hjoined⟩
          worked := hworked
          grouping := ⟨g, hgrouping, rfl, hhaving⟩
          columns := hcolumns
          types := ⟨fieldTypes, hfieldTypes, rfl⟩
          all := hall
          keys := ⟨reversed, requestedKeys, hreversed, hkeys, rfl⟩ },
        hturned.symm, hnone, hfinished⟩
  · rw [hgrouped] at hfalse
    exact absurd hfalse (by decide)

/-! ## Keys of group rows -/

variable {types : Dict FieldType} {keys : List SortKey}

theorem mem_foldl_withTieBreaker {fields : List String} {k : SortKey}
    (hk : k ∈ fields.foldl (fun keys f => withTieBreaker keys f (Dict.get? types f)) keys) :
    k ∈ keys ∨ ∃ f ∈ fields, k = SortKey.typed { field := f } (Dict.get? types f) := by
  induction fields generalizing keys with
  | nil => exact .inl hk
  | cons f rest ih =>
    rcases ih hk with hmem | ⟨g, hg, rfl⟩
    · rcases mem_withTieBreaker hmem with hmem | rfl
      · exact .inl hmem
      · exact .inr ⟨f, List.mem_cons_self, rfl⟩
    · exact .inr ⟨g, List.mem_cons_of_mem f hg, rfl⟩

theorem exists_mem_foldl_withTieBreaker {fields : List String} :
    (∀ k ∈ keys, k ∈ fields.foldl (fun keys f => withTieBreaker keys f (Dict.get? types f)) keys) ∧
      ∀ f ∈ fields, ∃ k ∈ fields.foldl (fun keys f => withTieBreaker keys f (Dict.get? types f)) keys,
        k.field = f := by
  induction fields generalizing keys with
  | nil => exact ⟨fun _ hk => hk, by simp⟩
  | cons f rest ih =>
    obtain ⟨hkept, hfields⟩ := @ih (withTieBreaker keys f (Dict.get? types f))
    refine ⟨fun k hk => hkept k (mem_withTieBreaker_of_mem hk), List.forall_mem_cons.mpr ⟨?_, hfields⟩⟩
    obtain ⟨k, hk, hfield⟩ := exists_mem_withTieBreaker keys f (Dict.get? types f)
    exact ⟨k, hkept k hk, hfield⟩

/-- The keys of a grouped query: requested columns and group fields, all typed. -/
theorem mem_groupKeys {sort : List SortItem} {fields : List String} (h : groupKeys types sort fields = .ok keys)
    {k : SortKey} (hk : k ∈ keys) :
    (k.field ∈ fields ∨ ∃ item ∈ sort, k.field = item.field ∧ Dict.contains types item.field = true) ∧
      k.temporal = (Dict.get? types k.field).any fun t => t.isA .datetime := by
  obtain ⟨requested, hrequested, h⟩ := Outcome.bind_eq_ok_iff.mp h
  obtain rfl := Except.ok.inj h
  rcases mem_foldl_withTieBreaker hk with hmem | ⟨f, hf, rfl⟩
  · obtain ⟨item, hitem, hkey⟩ := Outcome.exists_mem_of_mapM hrequested hmem
    rw [groupKey] at hkey
    split at hkey
    · rename_i hcontains
      obtain ⟨direction, _, hkey⟩ := Outcome.bind_eq_ok_iff.mp hkey
      obtain rfl := Except.ok.inj hkey
      exact ⟨.inr ⟨item, hitem, rfl, hcontains⟩, rfl⟩
    · simp at hkey
  · exact ⟨.inl hf, rfl⟩

/-- Every group field has a key. -/
theorem exists_mem_groupKeys {sort : List SortItem} {fields : List String}
    (h : groupKeys types sort fields = .ok keys) {f : String} (hf : f ∈ fields) : ∃ k ∈ keys, k.field = f := by
  obtain ⟨requested, _, h⟩ := Outcome.bind_eq_ok_iff.mp h
  obtain rfl := Except.ok.inj h
  exact exists_mem_foldl_withTieBreaker.2 f hf

/-! ## Plain grouping -/

/-- A query that groups by plain fields and sorts by no floats. -/
structure GroupsPlainly (q : Query) (s : Store) (schema : EntitySchema) (st : GroupStages) : Prop where
  /-- The group fields are declared as scalars, and not as floats. -/
  fields : ∀ f ∈ st.fields, ∃ type, type ≠ ScalarType.float ∧ schema.fieldType? f = some (.scalar type)
  /-- No two texts in a group field denote one instant. -/
  instants : ∀ f ∈ st.fields, schema.fieldType? f = some (.scalar .datetime) → ∀ a ∈ st.worked, ∀ b ∈ st.worked,
    (Record.value a f).compareTemporal (Record.value b f) = .eq → Record.value a f = Record.value b f
  /-- No requested key is a float. -/
  sort : ∀ item ∈ q.sort, Dict.get? st.types item.field ≠ some (.scalar .float)
  /-- The joins attach nothing under the name of a declared field. -/
  joins : ∀ f, Attaches s.schema? q.joins f → schema.fieldType? f = none
  /-- Rows can be counted with signed 64-bit integers. -/
  few : (st.worked.length : Int) ≤ int64Max

namespace GroupStaged

variable {st : GroupStages} {t : Table} (hst : q.GroupStaged policy s t.schema st)

include hst

/-- The types are those of group fields and of columns. -/
theorem type_of_get? {name : String} {type : FieldType} (h : Dict.get? st.types name = some type) :
    (name ∈ st.fields ∧ t.schema.fieldType? name = some type) ∨ ∃ c ∈ st.columns, c.output = name ∧ c.type = type := by
  obtain ⟨fieldTypes, hfieldTypes, htypes⟩ := hst.types
  rw [htypes] at h
  exact declared_or_column hfieldTypes h

/-- A group field that no column is named after has its declared type. -/
theorem type_of_field {f : String} (hf : f ∉ st.columns.map Column.output) {type : FieldType}
    (h : Dict.get? st.types f = some type) : t.schema.fieldType? f = some type := by
  rcases hst.type_of_get? h with ⟨-, hdeclared⟩ | ⟨c, hc, rfl, -⟩
  · exact hdeclared
  · exact absurd (List.mem_map_of_mem hc) hf

/-- Declared scalars are not changed before grouping, and are plain unless they are floats. -/
theorem plain_worked (hreachable : s.Reachable) (ht : s.table? q.entity = some t)
    (hplainly : q.GroupsPlainly s t.schema st) {r : Record} (hr : r ∈ st.worked) {name : String} {type : ScalarType}
    (htype : type ≠ .float) (hdeclared : t.schema.fieldType? name = some (.scalar type)) :
    (Record.value r name).Plain := by
  have hsound := hreachable.sound
  have hrecords : s.recordsOf q.entity = t.records := Store.recordsOf_of_table ht
  have hunwound : ¬Operation.Unwinds q.operations name := by
    intro hunwinds
    obtain ⟨element, harray⟩ := Operation.exists_array_of_unwinds hst.worked hunwinds
    simp [hdeclared] at harray
  have hattached : ¬Attaches s.schema? q.joins name := by
    intro hattaches
    simp [hplainly.joins name hattaches] at hdeclared
  obtain ⟨examined, hjoined⟩ := hst.joined
  obtain ⟨joined, hjoinedMem, hstem⟩ := Operation.onAllRecords_stems hst.worked hr
  obtain ⟨source, hsource, hkept⟩ := Join.allOnStore_keeps hsound hjoined hjoinedMem
  rw [hrecords] at hsource
  have hmem := List.mem_of_mem_filter hsource
  have hvalue : Record.value joined name = Record.value source name := by
    rw [Record.value, Record.value, hkept name hattached]
  rw [hstem.kept name hunwound, hvalue]
  exact (hsound _ t ht).1.plain_value hmem (hreachable.wellFormed _ t ht _ hmem) htype hdeclared

variable (haccepts : policy.accepts q = true)

include haccepts

/-- Columns have names of their own. -/
theorem outputs_apart : (st.columns.map Column.output).Nodup ∧
    ∀ f ∈ st.fields, f ∉ st.columns.map Column.output := by
  obtain ⟨_, e, _, hadmissible⟩ := Policy.admissibleOn_of_accepts haccepts
  obtain ⟨g, hgrouping, hfields, _⟩ := hst.grouping
  have hgroupFields : q.groupFields = st.fields := by
    rw [groupFields, hgrouping, Option.map_some, Option.getD_some, hfields]
  have houtputs : st.columns.map Column.output = q.outputNames := Column.outputs_of_resolve hst.columns
  rw [houtputs]
  exact ⟨hadmissible.grouping.outputs, fun f hf hmem =>
    hadmissible.grouping.columns f hmem (hgroupFields.symm ▸ hf)⟩

/-- What the row of a group shows. -/
theorem shown {row : Record} (hrow : row ∈ st.all) :
    ∃ r ∈ st.worked, ∃ members : List Record, members.Sublist st.worked ∧
      (∀ f ∈ st.fields, Record.value row f = Record.value r f) ∧
      ∀ c ∈ st.columns, c.compute members = .ok (Record.value row c.output) := by
  obtain ⟨hnodup, hother⟩ := hst.outputs_apart haccepts
  have hpartition := Group.partition_ofRecords st.fields st.worked
  obtain ⟨g, hg, hgroup⟩ := Outcome.exists_mem_of_mapM hst.all hrow
  obtain ⟨r, hr, hkey⟩ := hpartition.keyed g hg
  obtain ⟨hfields, hcolumns⟩ := Group.get?_row hgroup hkey hnodup hother
  refine ⟨r, hr, g.members, ?_, fun f hf => ?_, fun c hc => ?_⟩
  · rw [hpartition.members g hg]
    exact List.filter_sublist
  · rw [Record.value, hfields f hf, Option.getD_some]
  · obtain ⟨v, hv, hget⟩ := hcolumns c hc
    rw [hv, Record.value, hget, Option.getD_some]

/-- The rows show different keys. -/
theorem nodup_keyTexts : (st.all.map fun r => Group.keyText (Group.keyOf st.fields r)).Nodup := by
  obtain ⟨hnodup, hother⟩ := hst.outputs_apart haccepts
  exact (Group.partition_ofRecords st.fields st.worked).nodup_keyTexts hst.all hnodup hother

/-- The rows have different texts, since they show different keys. -/
theorem nodup_texts : (st.all.map fun r => (Value.object r).toText).Nodup := by
  have hshown := hst.nodup_keyTexts haccepts
  rw [List.Nodup, List.pairwise_map] at hshown ⊢
  exact hshown.imp fun hne heq => hne (Group.keyText_eq_of_toText heq)

variable (hreachable : s.Reachable) (ht : s.table? q.entity = some t) (hplainly : q.GroupsPlainly s t.schema st)

include hreachable ht hplainly

/-- Values of the keys are plain. -/
theorem plain_key {row : Record} (hrow : row ∈ st.all) {k : SortKey} (hk : k ∈ st.keys) :
    (Record.value row k.field).Plain := by
  obtain ⟨r, hr, members, hmembers, hfields, hcolumns⟩ := hst.shown haccepts hrow
  have hfield : ∀ f ∈ st.fields, (Record.value row f).Plain := by
    intro f hf
    obtain ⟨type, htype, hdeclared⟩ := hplainly.fields f hf
    rw [hfields f hf]
    exact hst.plain_worked hreachable ht hplainly hr htype hdeclared
  obtain ⟨reversed, keys, _, hkeys, hturned⟩ := hst.keys
  rw [hturned] at hk
  obtain ⟨k', hk', hsame, _⟩ := mem_orient hk
  rw [hsame]
  rcases (mem_groupKeys hkeys hk').1 with hmem | ⟨item, hitem, hitemField, hcontains⟩
  · exact hfield _ hmem
  · rw [hitemField]
    obtain ⟨type, htype⟩ := Option.isSome_iff_exists.mp hcontains
    rcases hst.type_of_get? htype with ⟨hmem, -⟩ | ⟨c, hc, houtput, hcolumn⟩
    · exact hfield _ hmem
    · obtain ⟨a, _, hresolve⟩ := Outcome.exists_mem_of_mapM hst.columns hc
      have hfloat : c.type ≠ .scalar .float := by
        rw [hcolumn]
        exact fun heq => hplainly.sort item hitem (heq ▸ htype)
      have hfew : (members.length : Int) ≤ int64Max := by
        have hlength := hmembers.length_le
        have hall := hplainly.few
        omega
      have hplain : ∀ name type, c.field = some (name, .scalar type) → type ≠ .float →
          ∀ r ∈ members, (Record.value r name).Plain := by
        intro name type hname hscalar r hr
        refine hst.plain_worked hreachable ht hplainly (hmembers.subset hr) hscalar ?_
        rcases (Column.resolve_eq_ok hresolve).2 with ⟨_, hnone⟩ | ⟨name', type', hsome, hdeclared, _⟩
        · rw [hnone] at hname
          exact absurd hname nofun
        · obtain ⟨rfl, rfl⟩ := Prod.mk.inj (Option.some.inj (hsome.symm.trans hname))
          exact hdeclared
      rw [← houtput]
      exact Column.plain_compute hresolve hfloat hfew hplain (hcolumns c hc)

/-- Rows that tie show the same keys. -/
theorem keyOf_eq_of_tie {a b : Record} (ha : a ∈ st.all) (hb : b ∈ st.all)
    (htie : compareRecords st.keys a b = .eq) : Group.keyOf st.fields a = Group.keyOf st.fields b := by
  obtain ⟨r, hr, _, _, hfields, _⟩ := hst.shown haccepts ha
  obtain ⟨r', hr', _, _, hfields', _⟩ := hst.shown haccepts hb
  refine List.map_congr_left fun f hf => ?_
  obtain ⟨reversed, keys, _, hkeys, hturned⟩ := hst.keys
  obtain ⟨k', hk', hfield'⟩ := exists_mem_groupKeys hkeys hf
  obtain ⟨k, hk, hsame⟩ := exists_mem_orient reversed hk'
  rw [← hturned] at hk
  have hfield : k.field = f := hsame.trans hfield'
  have htemporal : k.temporal = true → t.schema.fieldType? f = some (.scalar .datetime) := by
    intro htrue
    obtain ⟨l, hl, hlField, hlTemporal⟩ := mem_orient (hturned ▸ hk)
    rw [hlTemporal, (mem_groupKeys hkeys hl).2, ← hlField, hfield] at htrue
    cases htype : Dict.get? st.types f with
    | none =>
      rw [htype] at htrue
      exact absurd htrue Bool.false_ne_true
    | some type =>
      rw [htype, Option.any_some] at htrue
      have hdeclared := hst.type_of_field ((hst.outputs_apart haccepts).2 f hf) htype
      cases type with
      | scalar scalar =>
        have hscalar : scalar = .datetime := by simpa [FieldType.isA] using htrue
        rw [hdeclared, hscalar]
      | object | array => simp [FieldType.isA] at htrue
  cases htext : k.temporal with
  | false =>
    have hvalue := SortKey.value_eq_of_compareRecords htie hk htext
      (hst.plain_key haccepts hreachable ht hplainly ha hk) (hst.plain_key haccepts hreachable ht hplainly hb hk)
    rwa [hfield] at hvalue
  | true =>
    -- In columns of instants, texts that tie denote one instant.
    have hcompare := SortKey.compare_eq_of_compareRecords htie hk
    rw [SortKey.compare, SortKey.orient_eq_iff, htext, if_pos rfl, hfield, hfields f hf, hfields' f hf] at hcompare
    rw [hfields f hf, hfields' f hf]
    exact hplainly.instants f hf (htemporal htext) r hr r' hr' hcompare

/-- **Plain grouping puts the rows into a strict order.** -/
theorem ordered : st.Ordered := by
  have hrows : ∀ r ∈ st.rows, r ∈ st.all := fun r hr => List.mem_of_mem_filter hr
  have hplain : ∀ r ∈ st.rows, ∀ k ∈ st.keys, (Record.value r k.field).Plain := fun r hr k hk =>
    hst.plain_key haccepts hreachable ht hplainly (hrows r hr) hk
  refine ⟨SortKey.orders_exact fun r hr k hk => (hplain r hr k hk).exact, ?_,
    fun r hr k hk => (hplain r hr k hk).travels⟩
  have htexts := hst.nodup_keyTexts haccepts
  rw [List.Nodup, List.pairwise_map] at htexts
  refine (htexts.filter _).imp_of_mem ?_
  intro a b ha hb hne htie
  exact hne (by rw [hst.keyOf_eq_of_tie haccepts hreachable ht hplainly (hrows a ha) (hrows b hb) htie])

end GroupStaged

end Query

/-! ## What pages of group rows visit -/

namespace Engine

variable {e : Engine Store} {q : Query} {schema : EntitySchema}

/-- **Which group rows pages visit.** A grouped query that an engine answers has a row for each group of the rows at
hand. If the keys put the rows of the groups that pass into a strict order and cursors can carry their values, then
pages of every size visit these rows in that order, each of them once; a wish for a single row keeps the first ones.
Queries that group by plain fields and sort by no floats are of this kind. -/
theorem group_rows_paged (hreachable : e.store.Reachable) (hschema : e.store.schema? q.entity = some schema)
    (hgrouped : q.isGrouped = true) {c : Circumstances} {first : Response Value}
    (hfirst : (e.execute Target.value q false c).1 = .ok first) :
    ∃ st : Query.GroupStages,
      q.GroupStaged e.policy e.store schema st ∧
      Group.Partition st.fields st.worked (Group.ofRecords st.fields st.worked) ∧
      (q.GroupsPlainly e.store schema st → st.Ordered) ∧
      (st.Ordered →
        st.sorted.Perm st.rows ∧
        st.sorted.Pairwise (fun a b => compareRecords st.keys a b = .lt) ∧
        e.PagesVisit q ((st.sorted.take (Operation.kept q.operations st.rows.length)).map Value.object) ∧
        ((∀ o ∈ q.operations, o.cap? = none) → e.PagesVisit q (st.sorted.map Value.object))) := by
  obtain ⟨haccepts, hresult⟩ := execute_eq_ok_iff.mp hfirst
  obtain ⟨f, hfound, _⟩ := Outcome.bind_eq_ok_iff.mp hresult
  obtain ⟨st, hst, hkeys, hbinding, hfinished⟩ := Query.exists_groupStages hreachable.sound hschema hgrouped hfound
  obtain ⟨t, ht, rfl⟩ := Option.map_eq_some_iff.mp hschema
  have hpartition := Group.partition_ofRecords st.fields st.worked
  refine ⟨st, hst, hpartition, fun hplainly => hst.ordered haccepts hreachable ht hplainly, fun hordered => ?_⟩
  have hperm : st.sorted.Perm st.rows := SortKey.perm_sortBy st.keys id st.rows
  have hstrict : st.sorted.Pairwise fun a b => compareRecords st.keys a b = .lt :=
    SortKey.pairwise_lt (SortKey.pairwise_sort hordered.orders)
      ((pairwise_sort_iff st.keys st.rows).mpr hordered.apart)
  have htexts : ((st.sorted.map fun r => ({ source := r, shaped := r } : ShapedRow)).map fun row =>
      (Value.object row.shaped).toText).Nodup := by
    rw [List.map_map]
    exact (hperm.map _).nodup_iff.mpr ((hst.nodup_texts haccepts).sublist (List.filter_sublist.map _))
  have hrows := Operation.onAllRows_eq_take htexts hfinished
  rw [List.length_map, hperm.length_eq, ← List.map_take] at hrows
  have hitems : f.rows.map (q.rowItem f.binding) =
      (st.sorted.take (Operation.kept q.operations st.rows.length)).map Value.object := by
    rw [hrows, hbinding, List.map_map]
    rfl
  have hsublist : f.rows.Sublist (st.sorted.map fun r => { source := r, shaped := id r }) := by
    rw [hrows]
    exact (List.take_sublist _ _).map _
  have hpageable : Pageable f := by
    have hall := hsublist
    rw [Query.GroupStages.sorted, ← hkeys] at hall
    exact pageable_of_sublist hall (hkeys ▸ hordered.orders) (hkeys ▸ hordered.travels)
  have hvisit : e.PagesVisit q (f.rows.map (q.rowItem f.binding)) := by
    refine (pagesVisit_iff hpageable haccepts hfound).mpr (List.Pairwise.sublist hsublist ?_)
    rw [hkeys, List.pairwise_map]
    exact hstrict.imp fun hlt heq => absurd (hlt.symm.trans heq) (by decide)
  rw [hitems] at hvisit
  refine ⟨hperm, hstrict, hvisit, fun huncapped => ?_⟩
  rwa [Operation.kept_of_uncapped huncapped, ← hperm.length_eq, List.take_length] at hvisit

/-! ## Sales by region -/

/-- Sales in regions. -/
def saleSchema : EntitySchema where
  name := "Sale"
  fields := [("Id", .scalar .int), ("Region", .scalar .string)]

/-- A sale in a region. -/
def saleRecord (id : Int) (region : String) : Record := [("Id", .int id), ("Region", .string region)]

/-- Four sales in three regions. -/
def saleEntities : List EntityData :=
  [{ schema := saleSchema
     records := [saleRecord 1 "south", saleRecord 2 "north", saleRecord 3 "south", saleRecord 4 "east"] }]

/-- An engine that shows sales, and sorts by region. -/
def saleEngine : Engine Store where
  policy := { entities := [("sale", { name := "Sale", selectable := ["Region"], sortable := ["Region"] })] }
  store := .ofEntities saleEntities

/-- The numbers of sales in all regions, the greatest first. -/
def saleQuery : Query where
  entity := "Sale"
  sort := [{ field := "Sales", direction := "desc" }]
  groupBy := some { fields := ["Region"] }
  aggregations := [{ function := "count", outputAlias := some "Sales" }]

/-- The row of a region. -/
def regionRow (region : String) (sales : Int) : Record := [("Region", .string region), ("Sales", .int sales)]

theorem saleEntities_wellFormed : ∀ data ∈ saleEntities, data.WellFormed := by decide +kernel

theorem saleEngine_schema : saleEngine.store.schema? saleQuery.entity = some saleSchema :=
  Store.schema?_ofEntities saleEntities_wellFormed (by simp [saleEntities]) (by decide +kernel)

theorem saleQuery_columns {columns : List Column}
    (h : saleQuery.aggregations.mapM (Column.resolve saleSchema) = .ok columns) :
    columns = [{ function := .count, field := none, output := "Sales" }] := by
  have hparse : AggregateFunction.parse? "count" = some .count := by decide +kernel
  have hname : Aggregation.outputName { function := "count", outputAlias := some "Sales" } = "Sales" := by
    decide +kernel
  have hcolumn : Column.resolve saleSchema { function := "count", outputAlias := some "Sales" } =
      .ok { function := .count, field := none, output := "Sales" } := by
    simp [Column.resolve, hparse, hname, AggregateFunction.requiresField]
  simp only [saleQuery, List.mapM_cons, List.mapM_nil, hcolumn] at h
  exact (Except.ok.inj h).symm

/-- Pages of every size show the regions by their numbers of sales, and regions with one number by name. -/
theorem group_rows_paged_sales :
    saleEngine.PagesVisit saleQuery
      [.object (regionRow "south" 2), .object (regionRow "east" 1), .object (regionRow "north" 1)] := by
  have hfirst : (saleEngine.execute Target.value saleQuery false {}).1 = .ok
      { items := [.object (regionRow "south" 2), .object (regionRow "east" 1), .object (regionRow "north" 1)]
        size := 20, nextCursor := none, totalCount := none, rowsExamined := 4 } :=
    execute_eq_ok_iff.mpr ⟨by decide +kernel, by decide +kernel⟩
  obtain ⟨st, hst, _, hplain, hvisit⟩ :=
    group_rows_paged (Store.reachable_ofEntities saleEntities_wellFormed) saleEngine_schema rfl hfirst
  obtain ⟨_, hgrouping, hfields, hhaving⟩ := hst.grouping
  obtain rfl := Option.some.inj hgrouping
  have hconditions : st.having = .always := (Except.ok.inj hhaving).symm
  have hcolumns := saleQuery_columns hst.columns
  have htypes : st.types = Dict.ofList [("Region", .scalar .string), ("Sales", .scalar .int)] := by
    obtain ⟨fieldTypes, hfieldTypes, htypes⟩ := hst.types
    rw [← hfields] at hfieldTypes
    rw [htypes, ← Except.ok.inj hfieldTypes, hcolumns]
    rfl
  have hworked : st.worked =
      [saleRecord 1 "south", saleRecord 2 "north", saleRecord 3 "south", saleRecord 4 "east"] := by
    obtain ⟨_, hjoined⟩ := hst.joined
    rw [← Except.ok.inj hst.worked, ← (Prod.mk.inj (Except.ok.inj hjoined)).1, ← Except.ok.inj hst.predicate]
    decide +kernel
  have hkeys : st.keys = [{ field := "Sales", direction := .desc }, { field := "Region" }] := by
    obtain ⟨reversed, keys, hreversed, hkeys, hturned⟩ := hst.keys
    have hrequested : Query.groupKeys (Dict.ofList [("Region", .scalar .string), ("Sales", .scalar .int)])
        saleQuery.sort ["Region"] = .ok [{ field := "Sales", direction := .desc }, { field := "Region" }] := by
      decide +kernel
    rw [htypes, ← hfields] at hkeys
    rw [hturned, ← Except.ok.inj hreversed, ← Except.ok.inj (hrequested.symm.trans hkeys)]
    rfl
  have hrows : st.rows = [regionRow "south" 2, regionRow "north" 1, regionRow "east" 1] := by
    have hall := hst.all
    have hcomputed : (Group.ofRecords ["Region"]
        [saleRecord 1 "south", saleRecord 2 "north", saleRecord 3 "south", saleRecord 4 "east"]).mapM
          (Group.row ["Region"] [{ function := .count, field := none, output := "Sales" }]) =
        .ok [regionRow "south" 2, regionRow "north" 1, regionRow "east" 1] := by decide +kernel
    rw [hworked, hcolumns, ← hfields] at hall
    rw [Query.GroupStages.rows, hconditions, ← Except.ok.inj (hcomputed.symm.trans hall)]
    rfl
  have hplainly : saleQuery.GroupsPlainly saleEngine.store saleSchema st := by
    refine ⟨?_, ?_, ?_, ?_, ?_⟩
    · rw [← hfields]
      exact List.forall_mem_singleton.mpr ⟨.string, by decide, rfl⟩
    · rw [← hfields]
      exact List.forall_mem_singleton.mpr nofun
    · rw [htypes]
      exact List.forall_mem_singleton.mpr nofun
    · rintro f ⟨j, hj, _⟩
      exact absurd hj List.not_mem_nil
    · rw [hworked]
      decide
  have hall := (hvisit (hplain hplainly)).2.2.2 nofun
  have hsorted : st.sorted = [regionRow "south" 2, regionRow "east" 1, regionRow "north" 1] := by
    rw [Query.GroupStages.sorted, hkeys, hrows]
    decide +kernel
  rwa [hsorted] at hall

/-- A page without a cursor is the only one. -/
theorem pages_iff_of_result {e : Engine Store} {q : Query} {r : Response Value}
    (haccepts : e.policy.accepts { q with page := some {} } = true)
    (hresult : Query.result { q with page := some {} } e.policy e.store e.registry Target.value = .ok r)
    (hnext : r.nextCursor = none) (items : List Value) : e.Pages q none none items ↔ items = r.items := by
  obtain ⟨_, hexecute, _⟩ := exists_execute_eq {} haccepts hresult
  have honly : e.Pages q none none r.items := .last hexecute hnext
  exact ⟨fun h => h.unique (SameParts.refl e) honly, fun h => h ▸ honly⟩

/-- The region with most sales. -/
def topRegionQuery : Query := { saleQuery with operations := [{ kind := "First" }] }

/-- The numbers of sales in all regions, the least first. -/
def reversedSaleQuery : Query := { saleQuery with operations := [{ kind := "Reverse" }] }

/-- Three regions have sales. If the first one is asked for, the others are not shown; if the order is reversed, the
regions come the other way round. -/
theorem regions_capped_and_reversed :
    (saleQuery.groupRows saleSchema ((saleEngine.store.recordsOf "Sale").filter Predicate.always.holds) =
      .ok ([regionRow "south" 2, regionRow "north" 1, regionRow "east" 1],
        [{ field := "Sales", direction := .desc }, { field := "Region" }])) ∧
    (∀ items, saleEngine.Pages topRegionQuery none none items ↔ items = [.object (regionRow "south" 2)]) ∧
    (∀ items, saleEngine.Pages reversedSaleQuery none none items ↔
      items = [.object (regionRow "north" 1), .object (regionRow "east" 1), .object (regionRow "south" 2)]) := by
  have hfirst : Query.result { topRegionQuery with page := some {} } saleEngine.policy saleEngine.store
      saleEngine.registry Target.value = .ok
        { items := [.object (regionRow "south" 2)]
          size := 20, nextCursor := none, totalCount := none, rowsExamined := 4 } := by decide +kernel
  have hreversed : Query.result { reversedSaleQuery with page := some {} } saleEngine.policy saleEngine.store
      saleEngine.registry Target.value = .ok
        { items := [.object (regionRow "north" 1), .object (regionRow "east" 1), .object (regionRow "south" 2)]
          size := 20, nextCursor := none, totalCount := none, rowsExamined := 4 } := by decide +kernel
  exact ⟨by decide +kernel, pages_iff_of_result (by decide +kernel) hfirst rfl,
    pages_iff_of_result (by decide +kernel) hreversed rfl⟩

end Engine

end GuardedQuery
