import GuardedQuery.Proofs.Calls
import GuardedQuery.Proofs.GroupedRows
import GuardedQuery.Proofs.Loading
import GuardedQuery.Proofs.Reversal
import GuardedQuery.Proofs.TwoRuns

/-!
# The order of insertion

A query reads the records of a table in the order in which they were inserted, and sorting is stable. Yet the order of
insertion does not show in the answer of an ungrouped query, as long as no operation picks records by their position
and no join or unwinding makes several rows of one record. Until the rows are sorted, two runs on tables with the same
records have the same rows, each once and in some order. The identity is among the keys, so the keys tell all rows
apart, and there is only one way to sort them.

## Main definitions

* `Store.SameUpToOrder`: stores with the same records in any order.
* `Query.IgnoresOrder`: queries whose rows come of one record each, and are told apart by the keys.
* `Table.SameRows`: rows of a table in two orders, each of them once.

## Main statements

* `SortKey.sort_eq_of_perm`: rows that the keys tell apart are sorted in one way.
* `Operation.onAllRecords_sameRows`: operations that pick no positions keep the rows of two runs the same.
* `Engine.insertion_order_ignored`: the order of insertion does not show in what an engine hands on.
-/

namespace GuardedQuery

open Outcome (Same)
open SortKey (compareRecords)

/-! ## One way to sort -/

/-- Keys that order some records order a part of them. -/
theorem SortKey.Orders.mono {keys : List SortKey} {S T : Record → Prop} (h : Orders keys S) (hpart : ∀ r, T r → S r) :
    Orders keys T :=
  ⟨fun a b ha hb => h.swap a b (hpart a ha) (hpart b hb),
    fun a b c ha hb hc => h.trans a b c (hpart a ha) (hpart b hb) (hpart c hc)⟩

/-- **Rows that the keys tell apart are sorted in one way**, in whichever order they come. -/
theorem SortKey.sort_eq_of_perm {keys : List SortKey} {rows rows' : List Record} (hperm : rows'.Perm rows)
    (horders : Orders keys (· ∈ rows))
    (happart : ∀ a ∈ rows, ∀ b ∈ rows, compareRecords keys a b = .eq → a = b) : sort keys rows' = sort keys rows := by
  have horders' : Orders keys (· ∈ rows') := horders.mono fun r hr => hperm.mem_iff.mp hr
  have hantisymm : ∀ a b, a ∈ sort keys rows' → b ∈ sort keys rows → compareRecords keys a b ≠ .gt →
      compareRecords keys b a ≠ .gt → a = b := by
    intro a b ha hb hab hba
    have ha : a ∈ rows := hperm.mem_iff.mp (mem_sortBy.mp ha)
    have hb : b ∈ rows := mem_sortBy.mp hb
    refine happart a ha b hb ?_
    rw [Ne, horders.gt_iff_lt hb ha] at hba
    cases hcompare : compareRecords keys a b with
    | eq => rfl
    | lt => exact absurd hcompare hba
    | gt => exact absurd hcompare hab
  have hsorts : (sort keys rows').Perm (sort keys rows) :=
    ((perm_sortBy keys id rows').trans hperm).trans (perm_sortBy keys id rows).symm
  exact List.Perm.eq_of_pairwise hantisymm (pairwise_sort horders') (pairwise_sort horders) hsorts

/-- Neither sort of such rows gives up. -/
theorem SortKey.sort?_eq_of_perm {keys : List SortKey} {rows rows' : List Record} (hperm : rows'.Perm rows)
    (horders : Orders keys (· ∈ rows))
    (happart : ∀ a ∈ rows, ∀ b ∈ rows, compareRecords keys a b = .eq → a = b) : sort? keys rows' = sort? keys rows := by
  rw [sort?_eq_some horders, sort?_eq_some (horders.mono fun r hr => hperm.mem_iff.mp hr),
    sort_eq_of_perm hperm horders happart]

/-! ## Rows of one table -/

namespace Table

/-- Two records of a table with one text are one record. -/
theorem Sound.eq_of_toText {t : Table} (h : t.Sound) {a b : Record} (ha : a ∈ t.records) (hb : b ∈ t.records)
    (htext : (Value.object a).toText = (Value.object b).toText) : a = b := by
  have hnames : Dict.names a = Dict.names b := (h.names a ha).trans (h.names b hb).symm
  have hnodup : (Dict.names a).Nodup := h.names a ha ▸ h.sorted.nodup_names
  have hidentity := (Record.toText_eq_iff hnames hnodup).mp htext t.schema.identity
  refine h.eq_of_identity ha hb ?_
  unfold Record.value
  cases hget : Dict.get? a t.schema.identity <;> cases hget' : Dict.get? b t.schema.identity <;> simp_all

theorem Sound.nodup_records {t : Table} (h : t.Sound) : t.records.Nodup := by
  have hdistinct := h.distinct
  rw [h.identities] at hdistinct
  exact hdistinct.of_map

/-- Every value of a column of a sound table that is not declared as a float is compared exactly. -/
theorem Sound.exact_value {t : Table} (h : t.Sound) {r : Record} (hr : r ∈ t.records)
    (hwell : ∀ m ∈ r, m.2.WellFormed) {field : String} (hfloat : t.schema.fieldType? field ≠ some (.scalar .float)) :
    (Record.value r field).Exact := by
  cases hget : Dict.get? r field with
  | none =>
    rw [Record.value_of_get?_eq_none hget]
    trivial
  | some v =>
    obtain ⟨declared, hfield, hconforms⟩ := h.conforming r hr field v hget
    rw [Record.value_of_get? hget]
    refine FieldType.exact_of_conforms ?_ (hwell (field, v) (Dict.mem_of_get? hget)) hconforms
    rintro rfl
    exact hfloat hfield

/-- The same rows of a table in two orders, each of them once. -/
structure SameRows (t : Table) (rows rows' : List Record) : Prop where
  /-- They are the same rows. -/
  perm : rows'.Perm rows
  /-- They are records of the table. -/
  stored : ∀ r ∈ rows, r ∈ t.records
  /-- None of them comes twice. -/
  nodup : rows.Nodup

variable {t : Table} {rows rows' : List Record}

theorem SameRows.filter (h : t.SameRows rows rows') (p : Record → Bool) :
    t.SameRows (rows.filter p) (rows'.filter p) :=
  ⟨h.perm.filter p, fun r hr => h.stored r (List.mem_of_mem_filter hr), h.nodup.filter p⟩

theorem SameRows.reverse (h : t.SameRows rows rows') : t.SameRows rows.reverse rows'.reverse :=
  ⟨(rows'.reverse_perm.trans h.perm).trans rows.reverse_perm.symm, fun r hr => h.stored r (List.mem_reverse.mp hr),
    List.nodup_reverse.mpr h.nodup⟩

/-- Records of a table have texts of their own, so distinct rows are all rows. -/
theorem SameRows.distinct (h : t.SameRows rows rows') (ht : t.Sound) :
    distinctBy id [] rows = rows ∧ distinctBy id [] rows' = rows' := by
  have htexts : (rows.map fun r => (Value.object (id r)).toText).Nodup :=
    List.Nodup.map_on (fun a ha b hb => ht.eq_of_toText (h.stored a ha) (h.stored b hb)) h.nodup
  have htexts' := (h.perm.map fun r => (Value.object (id r)).toText).nodup_iff.mpr htexts
  exact ⟨Operation.distinctBy_of_nodup [] (by simp) htexts, Operation.distinctBy_of_nodup [] (by simp) htexts'⟩

end Table

/-- An operation that picks no positions keeps the rows of two runs the same. -/
theorem Operation.onRecords_sameRows {t : Table} (ht : t.Sound) {o : Operation}
    (ho : ∀ kind ∈ [OperationKind.skip, .take, .selectMany], OperationKind.parse? o.kind ≠ some kind)
    {rows rows' : List Record} (h : t.SameRows rows rows') (schema : EntitySchema) (maxTake : ℕ) :
    Same t.SameRows (o.onRecords schema maxTake rows) (o.onRecords schema maxTake rows') := by
  refine Same.bind_left _ fun kind hkind => ?_
  have hparse := kindOf_eq_ok_iff.mp hkind
  cases kind with
  | skip | take | selectMany => exact absurd hparse (ho _ (by decide))
  | distinct =>
    obtain ⟨hrows, hrows'⟩ := h.distinct ht
    simp only [hrows, hrows']
    exact .ok h
  | any | all => exact Same.bind_left _ fun pred _ => .ok (h.filter pred.holds)
  | reverse => exact .ok h.reverse
  | first | firstOrDefault | single | singleOrDefault => exact .ok h

/-- **Operations that pick no positions keep the rows of two runs the same.** -/
theorem Operation.onAllRecords_sameRows {t : Table} (ht : t.Sound) {os : List Operation}
    (hos : ∀ o ∈ os, ∀ kind ∈ [OperationKind.skip, .take, .selectMany], OperationKind.parse? o.kind ≠ some kind)
    {rows rows' : List Record} (h : t.SameRows rows rows') (schema : EntitySchema) (maxTake : ℕ) :
    Same t.SameRows (onAllRecords schema maxTake os rows) (onAllRecords schema maxTake os rows') := by
  induction os generalizing rows rows' with
  | nil => exact .ok h
  | cons o rest ih =>
    obtain ⟨ho, hrest⟩ := List.forall_mem_cons.mp hos
    exact (onRecords_sameRows ht ho h schema maxTake).bind fun _ _ hworked => ih hrest hworked

/-! ## Batches in another order -/

namespace Table

variable {t t' : Table}

theorem insert_of_conform {record r : Record} {identity : String} (hconform : t.schema.conform record = .ok r)
    (hidentity : t.identityText? r = some identity) (hnew : identity ∉ t.identities) :
    t.insert record = .ok { t with records := t.records ++ [r], identities := t.identities ++ [identity] } := by
  simp [insert, hconform, hidentity, hnew]

/-- A batch is accepted if and only if its records conform and have identities, none of which is used twice. -/
theorem insertAll_eq_ok_iff {batch : List Record} (ht : t.identities.Nodup) :
    t.insertAll batch = .ok t' ↔
      ∃ added, List.Forall₂ (fun r r' => t.schema.conform r = .ok r') batch added ∧
        (∀ r ∈ added, (t.identityText? r).isSome = true) ∧ (t.identities ++ added.map t.identityText).Nodup ∧
        t' = { t with
          records := t.records ++ added
          identities := t.identities ++ added.map t.identityText } := by
  induction batch generalizing t with
  | nil =>
    constructor
    · intro h
      obtain rfl := Except.ok.inj h
      exact ⟨[], .nil, by simp, by simpa using ht, by simp⟩
    · rintro ⟨_, ⟨⟩, _, _, rfl⟩
      simp [insertAll]
  | cons record rest ih =>
    constructor
    · intro h
      obtain ⟨u, hinsert, hrest⟩ : ∃ u, t.insert record = .ok u ∧ u.insertAll rest = .ok t' := by
        rw [insertAll] at h
        split at h
        · exact ⟨_, ‹_›, h⟩
        · cases h
      obtain ⟨r, identity, hconform, hidentity, hnew, rfl⟩ := insert_eq_ok hinsert
      have hnodup : (t.identities ++ [identity]).Nodup := List.nodup_append_comm.mp (List.nodup_cons.mpr ⟨hnew, ht⟩)
      obtain ⟨added, hadded, hidentified, hdistinct, rfl⟩ := (ih hnodup).mp hrest
      obtain ⟨_, rfl⟩ := identityText?_eq_some hidentity
      have hfirst : (t.identityText? r).isSome = true := Option.isSome_of_eq_some hidentity
      refine ⟨r :: added, .cons hconform hadded, List.forall_mem_cons.mpr ⟨hfirst, hidentified⟩, ?_, ?_⟩
      · exact List.append_assoc t.identities [t.identityText r] (added.map t.identityText) ▸ hdistinct
      · simp [identityText]
    · rintro ⟨_, ⟨⟩, hidentified, hdistinct, rfl⟩
      rename_i r added hconform hadded
      obtain ⟨hfirst, hothers⟩ := List.forall_mem_cons.mp hidentified
      obtain ⟨identity, hidentity⟩ := Option.isSome_iff_exists.mp hfirst
      obtain ⟨_, rfl⟩ := identityText?_eq_some hidentity
      have hsplit : (t.identities ++ [t.identityText r] ++ added.map t.identityText).Nodup := by
        simpa using hdistinct
      have hnodup := (List.nodup_append.mp hsplit).1
      have hnew : t.identityText r ∉ t.identities := (List.nodup_cons.mp (List.nodup_append_comm.mp hnodup)).1
      rw [insertAll, insert_of_conform hconform hidentity hnew]
      refine (ih hnodup).mpr ⟨added, hadded, hothers, hsplit, ?_⟩
      simp [identityText]

/-- A batch is accepted in any order if it is accepted in one, and the records are the same. -/
theorem insertAll_of_perm {batch batch' : List Record} (ht : t.identities.Nodup) (hperm : batch'.Perm batch)
    (h : t.insertAll batch = .ok t') :
    ∃ t'', t.insertAll batch' = .ok t'' ∧ t''.schema = t'.schema ∧ t''.records.Perm t'.records := by
  obtain ⟨added, hadded, hidentified, hdistinct, rfl⟩ := (insertAll_eq_ok_iff ht).mp h
  obtain ⟨added', hadded', hsame⟩ := List.perm_comp_forall₂ hperm hadded
  refine ⟨_, (insertAll_eq_ok_iff ht).mpr ⟨added', hadded', fun r hr => hidentified r (hsame.mem_iff.mp hr), ?_, rfl⟩,
    rfl, hsame.append_left t.records⟩
  exact ((hsame.map t.identityText).append_left t.identities).nodup_iff.mpr hdistinct

end Table

/-! ## Stores -/

namespace Store

/-- Two stores with the same entities and the same records, in any order. -/
structure SameUpToOrder (s s' : Store) : Prop where
  /-- The same entities are declared in the same way. -/
  declared : ∀ name, s'.schema? name = s.schema? name
  /-- They have the same records. -/
  records : ∀ name, (s'.recordsOf name).Perm (s.recordsOf name)

variable {s s' : Store} {name : String} {t : Table}

/-- **Inserting a batch in another order** makes a store with the same records. -/
theorem sameUpToOrder_insert (hs : s.Sound) {entity : String} {batch batch' : List Record}
    (hperm : batch'.Perm batch) (h : s.insert entity batch = .ok s') :
    ∃ s'', s.insert entity batch' = .ok s'' ∧ s'.SameUpToOrder s'' := by
  obtain ⟨t, t', ht, hall, rfl⟩ := insert_eq_ok_iff.mp h
  obtain ⟨t'', hall', hschema, hrecords⟩ := Table.insertAll_of_perm (hs _ t ht).1.distinct hperm hall
  refine ⟨_, insert_eq_ok_iff.mpr ⟨t, t'', ht, hall', rfl⟩, fun name => ?_, fun name => ?_⟩
  · simp only [schema?, table?, Dict.get?_insert]
    split
    · rw [Option.map_some, Option.map_some, hschema]
    · rfl
  · simp only [recordsOf, table?, Dict.get?_insert]
    split
    · exact hrecords
    · exact .refl _

theorem SameUpToOrder.refl (s : Store) : s.SameUpToOrder s := ⟨fun _ => rfl, fun _ => .refl _⟩

/-- An entity that is loaded with its records in another order. -/
theorem sameUpToOrder_ofEntities {schema : EntitySchema} (hsorted : Dict.Sorted schema.fields)
    {batch batch' : List Record} (hperm : batch'.Perm batch) :
    (ofEntities [{ schema, records := batch }]).SameUpToOrder (ofEntities [{ schema, records := batch' }]) := by
  have hload : ∀ records, ofEntities [{ schema, records }] =
      ((register {} schema >>= fun s => s.insert schema.name records).toOption).getD {} := by
    intro records
    simp only [ofEntities, addData, List.foldlM_cons, List.foldlM_nil, bind_pure]
  rw [hload, hload]
  cases hregister : register {} schema with
  | error e => exact .refl _
  | ok u =>
    have hsound : u.Sound := sound_empty.register hsorted hregister
    change (((u.insert schema.name batch).toOption).getD {}).SameUpToOrder
      (((u.insert schema.name batch').toOption).getD {})
    cases hinsert : u.insert schema.name batch with
    | ok s' =>
      obtain ⟨s'', hinsert', hsame⟩ := sameUpToOrder_insert hsound hperm hinsert
      rw [hinsert']
      exact hsame
    | error e =>
      cases hinsert' : u.insert schema.name batch' with
      | error e' => exact .refl _
      | ok s'' =>
        obtain ⟨s', hinserted, _⟩ := sameUpToOrder_insert hsound hperm.symm hinsert'
        rw [hinsert] at hinserted
        cases hinserted

theorem SameUpToOrder.exists_table (h : s.SameUpToOrder s') (ht : s.table? name = some t) :
    ∃ t', s'.table? name = some t' ∧ t'.schema = t.schema ∧ t'.records.Perm t.records := by
  have hdeclared := h.declared name
  rw [schema?_of_table ht, schema?, Option.map_eq_some_iff] at hdeclared
  obtain ⟨t', ht', hschema⟩ := hdeclared
  have hrecords := h.records name
  rw [recordsOf_of_table ht, recordsOf_of_table ht'] at hrecords
  exact ⟨t', ht', hschema, hrecords⟩

/-- Reading tables with the same records finds the same rows. -/
theorem SameUpToOrder.same_scan (h : s.SameUpToOrder s') (ht : s.table? name = some t) (hsound : t.Sound)
    (pred : Predicate) (cancelled : Bool) :
    (Storage.scan s name pred cancelled).Same
      (fun found found' => t.SameRows found.records found'.records ∧ found'.examined = found.examined)
      (Storage.scan s' name pred cancelled) := by
  obtain ⟨t', ht', _, hrecords⟩ := h.exists_table ht
  refine ⟨?_, rfl, rfl⟩
  change Same _ (s.scan name pred cancelled) (s'.scan name pred cancelled)
  have hall : t.SameRows t.records t'.records := ⟨hrecords, fun _ hr => hr, hsound.nodup_records⟩
  simp only [scan, table, ht, ht', Table.read, hrecords.isEmpty_eq, bind, Except.bind]
  split
  · exact .error _
  · exact .ok ⟨hall.filter pred.holds, hrecords.length_eq⟩

/-- Counting in tables with the same records finds one number. -/
theorem SameUpToOrder.same_count (h : s.SameUpToOrder s') (ht : s.table? name = some t) (pred : Predicate)
    (cancelled : Bool) :
    (Storage.count s name pred cancelled).Same Eq (Storage.count s' name pred cancelled) := by
  obtain ⟨t', ht', _, hrecords⟩ := h.exists_table ht
  refine ⟨?_, rfl, rfl⟩
  change Same _ (s.count name pred cancelled) (s'.count name pred cancelled)
  simp only [count, table, ht, ht', Table.read, hrecords.isEmpty_eq, bind, Except.bind]
  split
  · exact .error _
  · exact .ok (hrecords.countP_eq _).symm

end Store

/-! ## Queries -/

/-- Queries whose rows come of one record each, and are told apart by the keys. -/
structure Query.IgnoresOrder (q : Query) (s : Store) : Prop where
  /-- The query is not grouped. -/
  ungrouped : q.isGrouped = false
  /-- It joins nothing. -/
  joins : q.joins = []
  /-- No operation picks rows by their position or unwinds a collection. -/
  operations : ∀ o ∈ q.operations, ∀ kind ∈ [OperationKind.skip, .take, .selectMany],
    OperationKind.parse? o.kind ≠ some kind
  /-- The identity is a text, an integer, a truth value or a UUID. -/
  identity : ∀ schema, s.schema? q.entity = some schema → schema.HasPlainIdentity
  /-- No requested key is a float. -/
  sort : ∀ schema, s.schema? q.entity = some schema → ∀ item ∈ q.sort,
    schema.fieldType? item.field ≠ some (.scalar .float)

namespace Query

variable {q : Query} {s s' : Store} {t : Table}

/-- The keys of a query without joins hold instants where the fields are declared so. -/
theorem temporal_of_mem_recordKeys (hjoins : q.joins = []) {lookUp : String → Option EntitySchema}
    {schema : EntitySchema} {b : Binding} {keys : List SortKey} (h : q.recordKeys lookUp schema b = .ok keys)
    {k : SortKey} (hk : k ∈ keys) :
    (k.field = schema.identity ∨ ∃ item ∈ q.sort, k.field = item.field) ∧
      k.temporal = (schema.fieldType? k.field).any fun type => type.isA .datetime := by
  rcases mem_recordKeys h hk with ⟨item, hitem, rfl⟩ | rfl | ⟨j, hj, _⟩
  · exact ⟨.inr ⟨item, hitem, rfl⟩, rfl⟩
  · exact ⟨.inl rfl, rfl⟩
  · simp [hjoins] at hj

/-- The keys of such a query tell all records of the table apart, in either direction. -/
theorem IgnoresOrder.keys_order (hq : q.IgnoresOrder s) (hreachable : s.Reachable) (ht : s.table? q.entity = some t)
    {lookUp : String → Option EntitySchema} {b : Binding} {keys : List SortKey}
    (hkeys : q.recordKeys lookUp t.schema b = .ok keys) (reversed : Bool) :
    SortKey.Orders (orient reversed keys) (· ∈ t.records) ∧
      ∀ x ∈ t.records, ∀ y ∈ t.records, compareRecords (orient reversed keys) x y = .eq → x = y := by
  have hschema := Store.schema?_of_table ht
  have hsound : t.Sound := (hreachable.sound _ t ht).1
  have hwell := hreachable.wellFormed _ t ht
  have hplain : ∀ r ∈ t.records, (Record.value r t.schema.identity).Plain := fun r hr =>
    hsound.plain_identity (hq.identity _ hschema) hr (hwell r hr)
  constructor
  · refine orders_orient (SortKey.orders_exact fun r hr k hk => ?_) reversed
    rcases (temporal_of_mem_recordKeys hq.joins hkeys hk).1 with hfield | ⟨item, hitem, hfield⟩
    · rw [hfield]
      exact (hplain r hr).exact
    · rw [hfield]
      exact hsound.exact_value hr (hwell r hr) (hq.sort _ hschema item hitem)
  · intro x hx y hy htie
    obtain ⟨k, hk, hfield⟩ := exists_mem_recordKeys hkeys List.mem_cons_self
    obtain ⟨k', hk', hfield'⟩ := exists_mem_orient reversed hk
    obtain ⟨k'', hk'', hsame, htemporal⟩ := mem_orient hk'
    have hidentity : k'.field = t.schema.identity := hfield'.trans hfield
    have hplainKey : k'.temporal = false := by
      rw [htemporal, (temporal_of_mem_recordKeys hq.joins hkeys hk'').2, ← hsame, hidentity]
      exact (hq.identity _ hschema).not_datetime
    have hvalue := SortKey.value_eq_of_compareRecords htie hk' hplainKey
      (hidentity ▸ hplain x hx) (hidentity ▸ hplain y hy)
    rw [hidentity] at hvalue
    exact hsound.eq_of_identity hx hy (congrArg Value.toText hvalue)

/-- What two runs gather from the records of one table, up to their order. -/
structure GatheredAlike (t : Table) (g g' : Gathered) : Prop where
  /-- The declaration is that of the table. -/
  schema : g.schema = t.schema
  /-- There is a binding. -/
  bound : ∃ b, g.binding = some b
  /-- Only the order of the rows differs. -/
  rows : ∃ rows', t.SameRows g.rows rows' ∧ g' = { g with rows := rows' }

section Runs

variable (hq : q.IgnoresOrder s) (horder : s.SameUpToOrder s') (hreachable : s.Reachable)
  (ht : s.table? q.entity = some t) (policy : Policy)
include hq horder hreachable ht

/-- Two runs gather the same rows. -/
theorem IgnoresOrder.same_gather (registry : Registry) (label : String) :
    Step.Same (GatheredAlike t) (q.gather policy s registry label) (q.gather policy s' registry label) := by
  have hsound : t.Sound := (hreachable.sound _ t ht).1
  have hdeclared : Storage.schema? s' q.entity = Storage.schema? s q.entity := horder.declared q.entity
  rw [gather, gather, hdeclared]
  refine Step.Same.require_bind _ _ fun schema hschema => ?_
  obtain rfl : t.schema = schema := Option.some.inj ((Store.schema?_of_table ht).symm.trans hschema)
  refine Step.Same.ofExcept_bind _ fun binding hbinding => ?_
  refine Step.Same.ofExcept_bind _ fun predicate _ => ?_
  refine (Run.same_scan (horder.same_scan (hreachable.sound.table?_name ht) hsound predicate)).bind ?_
  rintro found found' ⟨hfound, hexamined⟩
  simp only [hq.joins, Join.applyAll, pure_bind, hexamined]
  refine (Step.same_ofExcept (Operation.onAllRecords_sameRows hsound hq.operations hfound t.schema _)).bind ?_
  intro rows rows' hrows
  refine Step.Same.bind_left _ fun _ => Step.same_pure ⟨rfl, ?_, rows', hrows, rfl⟩
  obtain ⟨b, hb, _⟩ := exists_of_bindingFor hq.ungrouped hbinding
  exact ⟨b, hb⟩

/-- Two runs present the same rows in one way. -/
theorem IgnoresOrder.same_present {α : Type} (target : Target α) {g g' : Gathered} (h : GatheredAlike t g g') :
    Step.Same Eq (q.present policy s target g) (q.present policy s' target g') := by
  obtain ⟨hschema, ⟨b, hb⟩, rows', hrows, rfl⟩ := h
  have hlookUp : Storage.schema? s' = Storage.schema? s := funext horder.declared
  have hsorting : Same (fun a b => a.2 = b.2 ∧ SortKey.sort? a.2 a.1 = SortKey.sort? b.2 b.1)
      (q.sorting (Storage.schema? s) g.schema g.binding g.rows)
      (q.sorting (Storage.schema? s') g.schema g.binding rows') := by
    rw [hlookUp, hb]
    refine Same.bind_left _ fun reversed _ => Same.bind_left _ fun keys hkeys => .ok ⟨rfl, ?_⟩
    obtain ⟨horders, happart⟩ := hq.keys_order hreachable ht (hschema ▸ hkeys) reversed
    exact (SortKey.sort?_eq_of_perm hrows.perm (horders.mono hrows.stored)
      fun x hx y hy => happart x (hrows.stored x hx) y (hrows.stored y hy)).symm
  have harrange : Step.Same Eq (q.arrange (Storage.schema? s) g.schema g.binding g.rows)
      (q.arrange (Storage.schema? s') g.schema g.binding rows') := by
    refine (Step.same_ofExcept hsorting).bind ?_
    rintro ⟨unsorted, keys⟩ ⟨unsorted', _⟩ ⟨rfl, hsort⟩
    have hrun : Run.sort keys unsorted = Run.sort keys unsorted' := by
      funext p
      rw [Run.sort, Run.sort, hsort]
    dsimp only
    rw [hrun]
    exact Step.same_of_eq rfl
  have htotal : Step.Same Eq (q.total s g) (q.total s' { g with rows := rows' }) := by
    rw [total, total]
    split
    · rw [hschema]
      exact Run.same_count (horder.same_count (hreachable.sound.table?_name ht) g.predicate)
    · exact Step.same_of_eq rfl
  refine harrange.bind ?_
  rintro shaped _ rfl
  refine Step.Same.bind_left _ fun finished => Step.Same.bind_left _ fun page => htotal.bind ?_
  rintro total _ rfl
  exact Step.same_of_eq rfl

end Runs

end Query

/-- **The order of insertion does not show in answers.** Two engines with one policy and one registry, whose stores
have the same records in any order, hand on the same for a query whose rows come of one record each and are told apart
by the keys: one error, or one response with its items, its cursor, its total number and the number of records looked
at. -/
theorem Engine.insertion_order_ignored {α : Type} {e e' : Engine Store} (hpolicy : e'.policy = e.policy)
    (hregistry : e'.registry = e.registry) (hreachable : e.store.Reachable) (horder : e.store.SameUpToOrder e'.store)
    {q : Query} (hq : q.IgnoresOrder e.store) (target : Target α) (cancelled : Bool) (c c' : Circumstances) :
    (e.execute target q cancelled c).1 = (e'.execute target q cancelled c').1 := by
  cases haccepts : e.policy.accepts q with
  | false =>
    have haccepts' : e'.policy.accepts q = false := hpolicy ▸ haccepts
    rw [execute_of_not_accepts haccepts, execute_of_not_accepts haccepts', hpolicy]
  | true =>
    refine Outcome.same_eq_iff.mp (same_execute haccepts (hpolicy ▸ haccepts) ?_ cancelled c c')
    rw [hpolicy, hregistry, Query.answer_eq_present, Query.answer_eq_present]
    cases htable : e.store.table? q.entity with
    | some t =>
      exact (hq.same_gather horder hreachable htable _ _ _).bind fun _ _ halike =>
        hq.same_present horder hreachable htable _ target halike
    | none =>
      -- both runs end at the declaration, which is missing
      have hnone : Storage.schema? e.store q.entity = none := by
        change (e.store.table? q.entity).map Table.schema = none
        rw [htable, Option.map_none]
      have hnone' : Storage.schema? e'.store q.entity = none := (horder.declared q.entity).trans hnone
      rw [Query.gather, Query.gather, hnone, hnone']
      exact fun _ => ⟨.error _, rfl⟩

/-! ## Coats of one colour -/

/-- Coats in several sizes. -/
def coatSchema : EntitySchema where
  name := "Coat"
  fields := [("Colour", .scalar .string), ("Id", .scalar .int), ("Sizes", .array (.scalar .int))]

/-- Two coats of one colour, and one without a colour. -/
def coats : List Record :=
  [[("Colour", .string "red"), ("Id", .int 9), ("Sizes", .array [.int 38, .int 40])],
    [("Colour", .string "red"), ("Id", .int 10), ("Sizes", .array [.int 42])],
    [("Colour", .null), ("Id", .int 2), ("Sizes", .null)]]

/-- An engine that shows coats, which were inserted in the given order. -/
def coatEngine (records : List Record) : Engine Store where
  policy :=
    { entities := [("coat", { name := "Coat", sortable := ["Colour", "Sizes"], selectable := ["Colour", "Id"] })] }
  store := .ofEntities [{ schema := coatSchema, records }]
  registry := { entries := [{ entity := "coat", target := "<value>", binding := .ofFields ["Colour", "Id", "Sizes"] }] }

/-- The first page of two distinct coats, in the opposite order of their colours and sizes, with their number. -/
def coatQuery : Query where
  entity := "Coat"
  sort := [{ field := "Colour" }, { field := "Sizes", direction := "desc" }]
  operations := [{ kind := "Distinct" }, { kind := "Reverse" }]
  page := some { size := some 1 }
  hints := some { includeCount := true }

/-- The page that shows the second coat in some form. Its cursor holds all keys of the coat. -/
def coatPage (item : Value) : Response Value where
  items := [item]
  size := 1
  nextCursor := some "eyJ2YWx1ZXMiOnsiQ29sb3VyIjoicmVkIiwiSWQiOjEwLCJTaXplcyI6WzQyXX0sInRpbWVzdGFtcCI6bnVsbH0="
  totalCount := some 3
  rowsExamined := 3

/-- The second coat. -/
def coatItem : Value := .object [("Colour", .string "red"), ("Id", .int 10), ("Sizes", .array [.int 42])]

theorem coatEntities_wellFormed : ∀ data ∈ [({ schema := coatSchema, records := coats } : EntityData)],
    data.WellFormed := by decide +kernel

/-- The keys order coats by their identities if their colours tie, so no order of insertion shows. -/
theorem coatQuery_ignoresOrder : coatQuery.IgnoresOrder (coatEngine coats).store := by
  have hdeclared : ∀ schema, (coatEngine coats).store.schema? coatQuery.entity = some schema → schema = coatSchema :=
    fun schema hschema => List.mem_singleton.mp (Store.schema_ofEntities coatEntities_wellFormed hschema)
  refine ⟨rfl, rfl, by decide +kernel, fun schema hschema => ?_, fun schema hschema => ?_⟩
  · obtain rfl := hdeclared schema hschema
    exact ⟨.int, by decide, rfl⟩
  · obtain rfl := hdeclared schema hschema
    simp [coatQuery, coatSchema, EntitySchema.fieldType?, Dict.get?]

/-- Coats that are inserted in the opposite order are answered in the same one. -/
theorem Engine.insertion_order_ignored_coats :
    (coatEngine coats).store.SameUpToOrder (coatEngine coats.reverse).store ∧
      ((coatEngine coats).execute Target.value coatQuery false {}).1 = .ok (coatPage coatItem) ∧
      ((coatEngine coats.reverse).execute Target.value coatQuery false {}).1 = .ok (coatPage coatItem) := by
  have hsorted : Dict.Sorted coatSchema.fields := Dict.sorted_iff_names.mpr (by decide +kernel)
  have hsame : (coatEngine coats).store.SameUpToOrder (coatEngine coats.reverse).store :=
    Store.sameUpToOrder_ofEntities hsorted coats.reverse_perm
  have hanswer : ((coatEngine coats).execute Target.value coatQuery false {}).1 = .ok (coatPage coatItem) :=
    execute_eq_ok_iff.mpr ⟨by decide +kernel, by decide +kernel⟩
  have hpolicy : (coatEngine coats.reverse).policy = (coatEngine coats).policy := rfl
  have hregistry : (coatEngine coats.reverse).registry = (coatEngine coats).registry := rfl
  have hother := insertion_order_ignored hpolicy hregistry (Store.reachable_ofEntities coatEntities_wellFormed) hsame
    coatQuery_ignoresOrder Target.value false {} {}
  exact ⟨hsame, hanswer, hother.symm.trans hanswer⟩

end GuardedQuery
