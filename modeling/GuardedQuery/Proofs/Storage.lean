import GuardedQuery.Proofs.Conforming
import GuardedQuery.Storage.Store
import Mathlib.Data.List.Nodup

/-!
# What stores hold

Whatever entities and records a store in memory has been given, its tables only hold records with exactly
the declared fields, whose values conform and whose identities all differ. Insertions only append.

## Main definitions

* `Table.Sound`, `Store.Sound`: the invariant of tables and stores.
* `Store.Reachable`: the stores that can come about.
* `Store.Grows`: a store whose tables are continued.
* `Store.WellFormed`: stores whose values are well formed.

## Main statements

* `Store.Reachable.sound`: the stores that can come about are sound.
* `Store.grows_insert`: an insertion continues the tables.
-/

namespace GuardedQuery

namespace Table

/-- The records of a table have exactly the declared fields with conforming values, and their identities
are there and all differ. -/
structure Sound (t : Table) : Prop where
  /-- The declared fields are in order. -/
  sorted : Dict.Sorted t.schema.fields
  /-- The identity is a declared scalar. -/
  identity : t.schema.hasValidIdentity = true
  /-- Every record has exactly the declared fields. -/
  names : ∀ r ∈ t.records, Dict.names r = Dict.names t.schema.fields
  /-- All values conform to their declared types. -/
  conforming : ∀ r ∈ t.records, ∀ f v, Dict.get? r f = some v →
    ∃ type, t.schema.fieldType? f = some type ∧ type.conforms v = true
  /-- No identity is null. -/
  identified : ∀ r ∈ t.records, (Record.value r t.schema.identity).isNull = false
  /-- The identities in use are those of the records. -/
  identities : t.identities = t.records.map fun r => (Record.value r t.schema.identity).toText
  /-- No two records have one identity. -/
  distinct : t.identities.Nodup

theorem sound_ofSchema {s : EntitySchema} {t : Table} (hsorted : Dict.Sorted s.fields)
    (h : ofSchema s = .ok t) : t.Sound ∧ t.schema = s ∧ t.records = [] := by
  rw [ofSchema] at h
  split at h
  · rename_i hvalid
    obtain rfl : _ = t := by simpa using h
    exact ⟨⟨hsorted, hvalid, by simp, by simp, by simp, rfl, List.nodup_nil⟩, rfl, rfl⟩
  · simp at h

/-- An insertion appends the conformed record, whose identity is new. -/
theorem insert_eq_ok {t t' : Table} {record : Record} (h : t.insert record = .ok t') :
    ∃ r identity, t.schema.conform record = .ok r ∧ t.identityText? r = some identity ∧
      identity ∉ t.identities ∧
      t' = { t with records := t.records ++ [r], identities := t.identities ++ [identity] } := by
  rw [insert] at h
  split at h
  · simp at h
  · rename_i r hr
    split at h
    · simp at h
    · rename_i identity hidentity
      split at h
      · simp at h
      · rename_i hnew
        exact ⟨r, identity, hr, hidentity, by simpa using hnew, by simpa using h.symm⟩

theorem identityText?_eq_some {t : Table} {r : Record} {identity : String}
    (h : t.identityText? r = some identity) :
    (Record.value r t.schema.identity).isNull = false ∧
      identity = (Record.value r t.schema.identity).toText := by
  rw [identityText?, Predicate.actual?] at h
  obtain ⟨v, hv, rfl⟩ := Option.map_eq_some_iff.mp h
  obtain ⟨hv, hnull⟩ := Option.filter_eq_some_iff.mp hv
  have hvalue : Record.value r t.schema.identity = v := by simp [Record.value, hv]
  rw [hvalue]
  exact ⟨by simpa using hnull, rfl⟩

theorem Sound.insert {t t' : Table} {record : Record} (hsound : t.Sound) (h : t.insert record = .ok t') :
    t'.Sound := by
  obtain ⟨r, identity, hconform, hidentity, hnew, rfl⟩ := insert_eq_ok h
  obtain ⟨hnames, hconforming⟩ := EntitySchema.conform_spec hconform
  obtain ⟨hnull, htext⟩ := identityText?_eq_some hidentity
  refine ⟨hsound.sorted, hsound.identity, ?_, ?_, ?_, ?_, ?_⟩
  · simpa [or_imp, forall_and] using ⟨hsound.names, hnames⟩
  · intro x hx
    rcases List.mem_append.mp hx with hx | hx
    · exact hsound.conforming x hx
    · obtain rfl : x = r := by simpa using hx
      exact hconforming
  · simpa [or_imp, forall_and] using ⟨hsound.identified, hnull⟩
  · simp [hsound.identities, htext]
  · refine List.nodup_append.mpr ⟨hsound.distinct, by simp, ?_⟩
    intro a ha b hb heq
    obtain rfl : b = identity := by simpa using hb
    exact hnew (heq ▸ ha)

/-- Inserting several records keeps the declaration and appends records. -/
theorem Sound.insertAll {t t' : Table} {records : List Record} (hsound : t.Sound)
    (h : t.insertAll records = .ok t') :
    t'.Sound ∧ t'.schema = t.schema ∧ ∃ added, t'.records = t.records ++ added := by
  induction records generalizing t with
  | nil =>
    obtain rfl : t = t' := by simpa [Table.insertAll] using h
    exact ⟨hsound, rfl, [], by simp⟩
  | cons record rest ih =>
    simp only [Table.insertAll] at h
    cases hinsert : t.insert record with
    | error e => simp [hinsert] at h
    | ok u =>
      simp only [hinsert] at h
      obtain ⟨hsound', hschema, added, hadded⟩ := ih (hsound.insert hinsert) h
      obtain ⟨r, _, _, _, _, rfl⟩ := insert_eq_ok hinsert
      exact ⟨hsound', hschema, r :: added, by simp [hadded]⟩

/-- Inserting well-formed records keeps all values well formed. -/
theorem wellFormed_insertAll {t t' : Table} {records : List Record}
    (hwell : ∀ r ∈ t.records, ∀ m ∈ r, m.2.WellFormed)
    (hrecords : ∀ r ∈ records, (Value.object r).WellFormed) (h : t.insertAll records = .ok t') :
    ∀ r ∈ t'.records, ∀ m ∈ r, m.2.WellFormed := by
  induction records generalizing t with
  | nil =>
    obtain rfl : t = t' := by simpa [Table.insertAll] using h
    exact hwell
  | cons record rest ih =>
    simp only [Table.insertAll] at h
    cases hinsert : t.insert record with
    | error e => simp [hinsert] at h
    | ok u =>
      simp only [hinsert] at h
      obtain ⟨r, _, hconform, _, _, rfl⟩ := insert_eq_ok hinsert
      refine ih ?_ (fun x hx => hrecords x (by simp [hx])) h
      intro x hx
      rcases List.mem_append.mp hx with hx | hx
      · exact hwell x hx
      · obtain rfl : x = r := by simpa using hx
        exact EntitySchema.wellFormed_conform (hrecords record (by simp)) hconform

/-- Records with one identity are one record. -/
theorem Sound.eq_of_identity {t : Table} (h : t.Sound) {a b : Record} (ha : a ∈ t.records)
    (hb : b ∈ t.records)
    (htext : (Record.value a t.schema.identity).toText = (Record.value b t.schema.identity).toText) :
    a = b := by
  have hnodup := h.distinct
  rw [h.identities] at hnodup
  exact List.inj_on_of_nodup_map hnodup ha hb htext

end Table

namespace Store

/-- The tables of a store are sound, and each is kept under the key of its entity. -/
def Sound (s : Store) : Prop :=
  ∀ name t, s.table? name = some t → t.Sound ∧ t.schema.key = entityKey name

/-- The stores that come about by adding entities and records. An entity's fields are a dictionary, so
their names are in order, and records are well-formed objects. What is refused changes nothing. -/
inductive Reachable : Store → Prop
  | empty : Reachable {}
  | register {s s' : Store} {schema : EntitySchema} :
      Reachable s → Dict.Sorted schema.fields → s.register schema = .ok s' → Reachable s'
  | insert {s s' : Store} {entity : String} {records : List Record} :
      Reachable s → (∀ r ∈ records, (Value.object r).WellFormed) → s.insert entity records = .ok s' →
      Reachable s'

/-- An entity is added if and only if its identity is a declared scalar and its key is free. -/
theorem register_eq_ok_iff {s s' : Store} {schema : EntitySchema} :
    s.register schema = .ok s' ↔ schema.hasValidIdentity = true ∧ s.table? schema.name = none ∧
      s' = { tables := Dict.insert s.tables schema.key { schema } } := by
  have hcontains : Dict.contains s.tables schema.key = true ↔ s.table? schema.name ≠ none :=
    Option.isSome_iff_ne_none
  rw [register, Table.ofSchema]
  by_cases hvalid : schema.hasValidIdentity = true
  · by_cases hfree : s.table? schema.name = none
    · simp [hvalid, hcontains, hfree, eq_comm]
    · simp [hvalid, hcontains, hfree]
  · simp [hvalid]

/-- Records are added if and only if the entity is known and its table accepts them. -/
theorem insert_eq_ok_iff {s s' : Store} {entity : String} {records : List Record} :
    s.insert entity records = .ok s' ↔ ∃ t t', s.table? entity = some t ∧ t.insertAll records = .ok t' ∧
      s' = { tables := Dict.insert s.tables (entityKey entity) t' } := by
  rw [insert, table]
  cases s.table? entity with
  | none => simp [bind, Except.bind]
  | some t => cases hall : t.insertAll records <;> simp [hall, bind, Except.bind, pure, Except.pure, eq_comm]

/-- A store with one entity and no records. -/
theorem Reachable.ofSchema {schema : EntitySchema} (hidentity : schema.hasValidIdentity = true)
    (hsorted : Dict.Sorted schema.fields) : Reachable { tables := [(schema.key, { schema })] } :=
  .register .empty hsorted (register_eq_ok_iff.mpr ⟨hidentity, rfl, rfl⟩)

theorem table?_register {s s' : Store} {schema : EntitySchema} (h : s.register schema = .ok s') :
    ∃ t, Table.ofSchema schema = .ok t ∧
      ∀ name, s'.table? name = if schema.key = entityKey name then some t else s.table? name := by
  obtain ⟨hvalid, _, rfl⟩ := register_eq_ok_iff.mp h
  exact ⟨{ schema }, if_pos hvalid, fun name => by simp [table?]⟩

theorem table?_insert {s s' : Store} {entity : String} {records : List Record}
    (h : s.insert entity records = .ok s') :
    ∃ t t', s.table? entity = some t ∧ t.insertAll records = .ok t' ∧
      ∀ name, s'.table? name = if entityKey entity = entityKey name then some t' else s.table? name := by
  obtain ⟨t, t', ht, hall, rfl⟩ := insert_eq_ok_iff.mp h
  exact ⟨t, t', ht, hall, fun name => by simp [table?]⟩

theorem sound_empty : Sound {} := by
  intro name t ht
  simp [table?, Dict.get?] at ht

theorem Sound.register {s s' : Store} (hs : s.Sound) {schema : EntitySchema} (hsorted : Dict.Sorted schema.fields)
    (h : s.register schema = .ok s') : s'.Sound := by
  obtain ⟨t, ht, hlookUp⟩ := table?_register h
  obtain ⟨hsound, hschema, _⟩ := Table.sound_ofSchema hsorted ht
  intro name u hu
  rw [hlookUp name] at hu
  split at hu
  · rename_i hkey
    obtain rfl : t = u := by simpa using hu
    exact ⟨hsound, by rw [hschema]; exact hkey⟩
  · exact hs name u hu

theorem Sound.insert {s s' : Store} (hs : s.Sound) {entity : String} {records : List Record}
    (h : s.insert entity records = .ok s') : s'.Sound := by
  obtain ⟨t, t', ht, hall, hlookUp⟩ := table?_insert h
  obtain ⟨hsound, hkey⟩ := hs entity t ht
  obtain ⟨hsound', hschema, _⟩ := hsound.insertAll hall
  intro name u hu
  rw [hlookUp name] at hu
  split at hu
  · rename_i hname
    obtain rfl : t' = u := by simpa using hu
    exact ⟨hsound', by rw [hschema, hkey, hname]⟩
  · exact hs name u hu

/-- A store that can come about is sound. -/
theorem Reachable.sound {s : Store} (h : s.Reachable) : s.Sound := by
  induction h with
  | empty => exact sound_empty
  | register _ hsorted hregister ih => exact ih.register hsorted hregister
  | insert _ _ hinsert ih => exact ih.insert hinsert

/-- In a sound store an entity is also found under the name that its declaration gives it. -/
theorem Sound.table?_name {s : Store} (h : s.Sound) {name : String} {t : Table}
    (ht : s.table? name = some t) : s.table? t.schema.name = some t := by
  have hkey : entityKey t.schema.name = entityKey name := (h name t ht).2
  rw [table?] at ht ⊢
  rw [hkey]
  exact ht

/-- Every table of the first store is continued in the second one. -/
def Grows (s s' : Store) : Prop :=
  ∀ name t, s.table? name = some t →
    ∃ t' added, s'.table? name = some t' ∧ t'.schema = t.schema ∧ t'.records = t.records ++ added

theorem Grows.refl (s : Store) : s.Grows s := fun _ t ht => ⟨t, [], ht, rfl, by simp⟩

theorem Grows.trans {s₁ s₂ s₃ : Store} (h : s₁.Grows s₂) (h' : s₂.Grows s₃) : s₁.Grows s₃ := by
  intro name t ht
  obtain ⟨t', added, ht', hschema, hrecords⟩ := h name t ht
  obtain ⟨t'', added', ht'', hschema', hrecords'⟩ := h' name t' ht'
  exact ⟨t'', added ++ added', ht'', hschema'.trans hschema, by simp [hrecords', hrecords]⟩

/-- An insertion continues the tables. -/
theorem grows_insert {s s' : Store} {entity : String} {records : List Record} (hsound : s.Sound)
    (h : s.insert entity records = .ok s') : s.Grows s' := by
  obtain ⟨t, t', ht, hall, hlookUp⟩ := table?_insert h
  obtain ⟨_, hschema, added, hadded⟩ := (hsound entity t ht).1.insertAll hall
  intro name u hu
  by_cases hname : entityKey entity = entityKey name
  · have hsame : s.table? name = s.table? entity := by simp only [table?, hname]
    obtain rfl : t = u := by
      rw [hsame, ht] at hu
      simpa using hu
    exact ⟨t', added, by rw [hlookUp, if_pos hname], hschema, hadded⟩
  · exact ⟨u, [], by rw [hlookUp, if_neg hname]; exact hu, rfl, by simp⟩

/-! ## Well-formed values -/

/-- All values in the store are well formed, as reading makes them. -/
def WellFormed (s : Store) : Prop :=
  ∀ name t, s.table? name = some t → ∀ r ∈ t.records, ∀ m ∈ r, m.2.WellFormed

/-- Inserting well-formed records keeps all values well formed. -/
theorem WellFormed.insert {s s' : Store} {entity : String} {records : List Record} (hwell : s.WellFormed)
    (hrecords : ∀ r ∈ records, (Value.object r).WellFormed) (h : s.insert entity records = .ok s') :
    s'.WellFormed := by
  obtain ⟨t, t', ht, hall, hlookUp⟩ := table?_insert h
  intro name u hu
  rw [hlookUp name] at hu
  split at hu
  · obtain rfl : t' = u := by simpa using hu
    exact Table.wellFormed_insertAll (hwell entity t ht) hrecords hall
  · exact hwell name u hu

/-- All values in a store that can come about are well formed. -/
theorem Reachable.wellFormed {s : Store} (h : s.Reachable) : s.WellFormed := by
  induction h with
  | empty => intro name t ht; simp [table?, Dict.get?] at ht
  | @register s s' schema _ hsorted hregister ih =>
    obtain ⟨t, ht, hlookUp⟩ := table?_register hregister
    obtain ⟨_, _, hnone⟩ := Table.sound_ofSchema hsorted ht
    intro name u hu
    rw [hlookUp name] at hu
    split at hu
    · obtain rfl : t = u := by simpa using hu
      simp [hnone]
    · exact ih name u hu
  | insert _ hrecords hinsert ih => exact ih.insert hrecords hinsert

/-- The records of an entity; an unknown entity has none. -/
def recordsOf (s : Store) (entity : String) : List Record := ((s.table? entity).map Table.records).getD []

theorem recordsOf_of_table {s : Store} {entity : String} {t : Table} (ht : s.table? entity = some t) :
    s.recordsOf entity = t.records := by
  rw [recordsOf, ht, Option.map_some, Option.getD_some]

theorem schema?_of_table {s : Store} {entity : String} {t : Table} (ht : s.table? entity = some t) :
    s.schema? entity = some t.schema := by
  rw [schema?, ht, Option.map_some]

end Store

end GuardedQuery
