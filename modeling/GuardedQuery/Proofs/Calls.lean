import GuardedQuery.Proofs.Storage
import GuardedQuery.Storage.Call

/-!
# What calls do to a store

A batch that is refused in the middle has already changed its table, but cutting the table back undoes all of it: in
place or not, a batch is inserted as a whole or not at all. So whatever calls a store has had, with whatever success,
its tables are sound, and no object in a record has a member that its type does not declare, however deep it lies.

## Main definitions

* `FieldType.Part`: a part of a value, with the type that is declared for it.
* `Store.Call.WellFormed`: calls whose schema is a dictionary of fields.

## Main statements

* `Table.insertBatch_eq`: inserting in place is inserting as a whole.
* `Store.perform_insert`: likewise for a batch of a store.
* `Store.calls_keep_tables_sound`: what holds of a store after any calls, and what the next call does to it.
-/

namespace GuardedQuery

/-! ## Parts of a value -/

namespace FieldType

/-- A part of a value, with the type that is declared for it. -/
inductive Part : FieldType → Value → FieldType → Value → Prop
  /-- The value itself. -/
  | whole (t : FieldType) (v : Value) : Part t v t v
  /-- A part of a declared member of an object. -/
  | member {fields : List (String × FieldType)} {ms : List (String × Value)} {k : String} {t u : FieldType}
      {x w : Value} : Dict.get? fields k = some t → (k, x) ∈ ms → Part t x u w → Part (.object fields) (.object ms) u w
  /-- A part of an item of an array. -/
  | item {e u : FieldType} {items : List Value} {x w : Value} :
      x ∈ items → Part e x u w → Part (.array e) (.array items) u w

theorem memberConforms_iff {fields : List (String × FieldType)} {k : String} {v : Value} :
    memberConforms fields k v = true ↔ ∃ t, Dict.get? fields k = some t ∧ t.conforms v = true := by
  induction fields with
  | nil => simp [memberConforms, Dict.get?]
  | cons field rest ih =>
    obtain ⟨name, t⟩ := field
    by_cases hname : name = k
    · simp [memberConforms, Dict.get?, hname]
    · simp [memberConforms, Dict.get?, hname, ih]

/-- Every part of a conforming value conforms to the type that is declared for it. -/
theorem Part.conforms {t u : FieldType} {v w : Value} (h : Part t v u w) (hv : t.conforms v = true) :
    u.conforms w = true := by
  induction h with
  | whole => exact hv
  | member hfield hmember _ ih =>
    rw [FieldType.conforms, List.all_eq_true] at hv
    obtain ⟨declared, hdeclared, hconforms⟩ := memberConforms_iff.mp (hv _ hmember)
    obtain rfl := Option.some.inj (hfield.symm.trans hdeclared)
    exact ih hconforms
  | item hmem _ ih =>
    rw [FieldType.conforms, List.all_eq_true] at hv
    exact ih (hv _ hmem)

/-- A conforming object has declared members only. -/
theorem declared_of_conforms {t : FieldType} {ms : List (String × Value)} (h : t.conforms (.object ms) = true) :
    ∃ fields, t = .object fields ∧ ∀ k ∈ Dict.names ms, k ∈ Dict.names fields := by
  cases t with
  | scalar type => cases type <;> simp [conforms, ScalarType.conforms, Value.isNull, Value.asInt64?, Value.asBinary64?] at h
  | array e => simp [conforms] at h
  | object fields =>
    refine ⟨fields, rfl, fun k hk => ?_⟩
    rw [conforms, List.all_eq_true] at h
    obtain ⟨m, hm, rfl⟩ := List.mem_map.mp hk
    obtain ⟨declared, hdeclared, _⟩ := memberConforms_iff.mp (h m hm)
    exact List.mem_map_of_mem (Dict.mem_of_get? hdeclared)

end FieldType

/-! ## Batches -/

namespace Table

/-- The text of the identity of a record. -/
def identityText (t : Table) (r : Record) : String := (Record.value r t.schema.identity).toText

/-- Records that are all accepted are conformed and appended in order, with their identities. -/
theorem insertAll_eq_ok {t t' : Table} {batch : List Record} (h : t.insertAll batch = .ok t') :
    ∃ added, List.Forall₂ (fun r r' => t.schema.conform r = .ok r') batch added ∧
      t' = { t with
        records := t.records ++ added
        identities := t.identities ++ added.map t.identityText } := by
  induction batch generalizing t with
  | nil =>
    obtain rfl : t = t' := by simpa [insertAll] using h
    exact ⟨[], .nil, by simp⟩
  | cons record rest ih =>
    simp only [insertAll] at h
    cases hinsert : t.insert record with
    | error e => simp [hinsert] at h
    | ok u =>
      simp only [hinsert] at h
      obtain ⟨added, hadded, rfl⟩ := ih h
      obtain ⟨r, identity, hconform, hidentity, _, rfl⟩ := insert_eq_ok hinsert
      obtain ⟨_, rfl⟩ := identityText?_eq_some hidentity
      exact ⟨r :: added, .cons hconform hadded, by simp [identityText]⟩

/-- In place, records that are all accepted make the table that they make as a whole. -/
theorem insertUpTo_of_ok {t t' : Table} {batch : List Record} (h : t.insertAll batch = .ok t') :
    t.insertUpTo batch = (.ok (), t') := by
  induction batch generalizing t with
  | nil =>
    obtain rfl : t = t' := by simpa [insertAll] using h
    rfl
  | cons record rest ih =>
    simp only [insertAll] at h
    rw [insertUpTo]
    cases hinsert : t.insert record with
    | error e => simp [hinsert] at h
    | ok u =>
      simp only [hinsert] at h
      exact ih h

/-- In place, a record that is refused leaves the ones before it in the table, behind those that were there. -/
theorem insertUpTo_of_error {t : Table} {batch : List Record} {e : StorageError} (h : t.insertAll batch = .error e) :
    ∃ gained texts, t.insertUpTo batch =
      (.error e, { t with records := t.records ++ gained, identities := t.identities ++ texts }) := by
  induction batch generalizing t with
  | nil => simp [insertAll] at h
  | cons record rest ih =>
    simp only [insertAll] at h
    rw [insertUpTo]
    cases hinsert : t.insert record with
    | error e' =>
      obtain rfl : e' = e := by simpa [hinsert] using h
      exact ⟨[], [], by simp⟩
    | ok u =>
      simp only [hinsert] at h
      obtain ⟨gained, texts, hgained⟩ := ih h
      obtain ⟨r, identity, _, _, _, rfl⟩ := insert_eq_ok hinsert
      exact ⟨r :: gained, identity :: texts, by simp [hgained]⟩

/-- **Inserting in place is inserting as a whole**: cutting the table back undoes a batch that is refused. -/
theorem insertBatch_eq (t : Table) (batch : List Record) :
    t.insertBatch batch =
      match t.insertAll batch with
      | .ok t' => (.ok batch.length, t')
      | .error e => (.error e, t) := by
  rw [insertBatch]
  cases hall : t.insertAll batch with
  | ok t' =>
    obtain ⟨added, hadded, rfl⟩ := insertAll_eq_ok hall
    simp [insertUpTo_of_ok hall, hadded.length_eq]
  | error e =>
    obtain ⟨gained, texts, hgained⟩ := insertUpTo_of_error hall
    simp [hgained, cutBack]

end Table

/-! ## Calls -/

namespace Store

/-- A call whose fields are a dictionary, as every schema has them. -/
def Call.WellFormed : Call → Prop
  | .register schema => Dict.Sorted schema.fields
  | .insert .. => True

theorem perform_register (s : Store) (schema : EntitySchema) :
    s.perform (.register schema) =
      match s.register schema with
      | .ok s' => (.ok 0, s')
      | .error e => (.error e, s) := rfl

/-- A batch in place goes as it goes as a whole. -/
theorem perform_insert {s : Store} (hs : Dict.Sorted s.tables) (entity : String) (batch : List Record) :
    s.perform (.insert entity batch) =
      match s.insert entity batch with
      | .ok s' => (.ok batch.length, s')
      | .error e => (.error e, s) := by
  cases ht : s.table? entity with
  | none => simp [perform, Store.insert, table, ht, bind, Except.bind]
  | some t =>
    cases hall : t.insertAll batch with
    | ok t' =>
      simp [perform, Store.insert, table, ht, Table.insertBatch_eq, hall, bind, Except.bind, pure, Except.pure]
    | error e =>
      simp [perform, Store.insert, table, ht, Table.insertBatch_eq, hall, bind, Except.bind, Dict.insert_of_get? hs ht]

/-- What every call keeps: the tables are sound, and kept in the order of their keys. -/
structure Tidy (s : Store) : Prop where
  /-- The tables are sound. -/
  sound : s.Sound
  /-- The tables are in order. -/
  sorted : Dict.Sorted s.tables

theorem tidy_empty : Tidy {} := ⟨sound_empty, List.Pairwise.nil⟩

/-- One call keeps the store tidy, whatever its reply. -/
theorem Tidy.perform {s : Store} (h : s.Tidy) {call : Call} (hcall : call.WellFormed) : (s.perform call).2.Tidy := by
  cases call with
  | register schema =>
    rw [perform_register]
    cases hregister : s.register schema with
    | error e => exact h
    | ok s' =>
      obtain ⟨_, _, rfl⟩ := register_eq_ok_iff.mp hregister
      exact ⟨h.sound.register hcall hregister, Dict.sorted_insert h.sorted _ _⟩
  | insert entity batch =>
    rw [perform_insert h.sorted]
    cases hinsert : s.insert entity batch with
    | error e => exact h
    | ok s' =>
      obtain ⟨_, _, _, _, rfl⟩ := insert_eq_ok_iff.mp hinsert
      exact ⟨h.sound.insert hinsert, Dict.sorted_insert h.sorted _ _⟩

/-- Any calls keep the store tidy, whatever their replies. -/
theorem Tidy.performAll {s : Store} (h : s.Tidy) {calls : List Call} (hcalls : ∀ call ∈ calls, call.WellFormed) :
    (s.performAll calls).Tidy := by
  induction calls generalizing s with
  | nil => exact h
  | cons call rest ih =>
    obtain ⟨hcall, hrest⟩ := List.forall_mem_cons.mp hcalls
    exact ih (h.perform hcall) hrest

/-- A call that is refused leaves the store as it was. -/
theorem Tidy.perform_of_error {s : Store} (h : s.Tidy) {call : Call} {e : StorageError} {s' : Store}
    (hperform : s.perform call = (.error e, s')) : s' = s := by
  cases call with
  | register schema =>
    rw [perform_register] at hperform
    split at hperform
    · simp at hperform
    · exact (Prod.mk.inj hperform).2.symm
  | insert entity batch =>
    rw [perform_insert h.sorted] at hperform
    split at hperform
    · simp at hperform
    · exact (Prod.mk.inj hperform).2.symm

/-- An entity is added without records, and only under a key that is free. -/
theorem register_eq_ok {s s' : Store} {schema : EntitySchema} (h : s.register schema = .ok s') :
    schema.hasValidIdentity = true ∧ s.table? schema.name = none ∧
      ∀ name, s'.table? name = if entityKey name = schema.key then some { schema } else s.table? name := by
  obtain ⟨hvalid, hfree, rfl⟩ := register_eq_ok_iff.mp h
  refine ⟨hvalid, hfree, fun name => ?_⟩
  rw [table?, Dict.get?_insert]
  exact if_congr eq_comm rfl rfl

theorem perform_register_eq_ok {s s' : Store} {schema : EntitySchema} {n : Nat}
    (hperform : s.perform (.register schema) = (.ok n, s')) :
    n = 0 ∧ schema.hasValidIdentity = true ∧ s.table? schema.name = none ∧
      ∀ name, s'.table? name = if entityKey name = schema.key then some { schema } else s.table? name := by
  rw [perform_register] at hperform
  cases hregister : s.register schema with
  | error e => simp [hregister] at hperform
  | ok after =>
    obtain ⟨rfl, rfl⟩ : 0 = n ∧ after = s' := by simpa [hregister] using hperform
    exact ⟨rfl, register_eq_ok hregister⟩

/-- Records are conformed and appended to the table of their entity, in order, and nothing else changes. -/
theorem perform_insert_eq_ok {s s' : Store} (hs : Dict.Sorted s.tables) {entity : String} {batch : List Record}
    {n : Nat} (hperform : s.perform (.insert entity batch) = (.ok n, s')) :
    n = batch.length ∧ ∃ t added, s.table? entity = some t ∧
      List.Forall₂ (fun r r' => t.schema.conform r = .ok r') batch added ∧
      ∀ name, s'.table? name =
        if entityKey name = entityKey entity then
          some { t with records := t.records ++ added, identities := t.identities ++ added.map t.identityText }
        else s.table? name := by
  rw [perform_insert hs] at hperform
  cases hinsert : s.insert entity batch with
  | error e => simp [hinsert] at hperform
  | ok after =>
    obtain ⟨rfl, rfl⟩ : batch.length = n ∧ after = s' := by simpa [hinsert] using hperform
    obtain ⟨t, t', ht, hall, hlookUp⟩ := table?_insert hinsert
    obtain ⟨added, hadded, rfl⟩ := Table.insertAll_eq_ok hall
    refine ⟨rfl, t, added, ht, hadded, fun name => ?_⟩
    rw [hlookUp]
    simp only [eq_comm]

/-- **Whatever calls a store has had, its tables are sound**: identities are declared scalars, records have exactly
the declared fields with conforming values, down to the members of objects at any depth, and identities are there,
differ, and are the ones in use. A further call that is refused leaves the store as it was; one that succeeds adds
an entity without records, or appends the conformed records of its batch. -/
theorem calls_keep_tables_sound {calls : List Call} (hcalls : ∀ call ∈ calls, call.WellFormed) {s : Store}
    (hs : performAll {} calls = s) :
    (∀ name t, s.table? name = some t → t.Sound ∧
      ∀ r ∈ t.records, ∀ f v, Dict.get? r f = some v → ∃ type, t.schema.fieldType? f = some type ∧
        ∀ u w, type.Part v u w → u.conforms w = true ∧
          ∀ ms, w = .object ms → ∃ fields, u = .object fields ∧ ∀ k ∈ Dict.names ms, k ∈ Dict.names fields) ∧
    (∀ call e s', s.perform call = (.error e, s') → s' = s) ∧
    (∀ schema n s', s.perform (.register schema) = (.ok n, s') →
      n = 0 ∧ schema.hasValidIdentity = true ∧ s.table? schema.name = none ∧
        ∀ name, s'.table? name = if entityKey name = schema.key then some { schema } else s.table? name) ∧
    (∀ entity batch n s', s.perform (.insert entity batch) = (.ok n, s') →
      n = batch.length ∧ ∃ t added, s.table? entity = some t ∧
        List.Forall₂ (fun r r' => t.schema.conform r = .ok r') batch added ∧
        ∀ name, s'.table? name =
          if entityKey name = entityKey entity then
            some { t with records := t.records ++ added, identities := t.identities ++ added.map t.identityText }
          else s.table? name) ∧
    ∀ entity batch, s.perform (.insert entity batch) =
      match s.insert entity batch with
      | .ok s' => (.ok batch.length, s')
      | .error e => (.error e, s) := by
  have htidy : s.Tidy := hs ▸ tidy_empty.performAll hcalls
  refine ⟨?_, fun _ _ _ => htidy.perform_of_error, fun _ _ _ => perform_register_eq_ok,
    fun _ _ _ _ => perform_insert_eq_ok htidy.sorted, perform_insert htidy.sorted⟩
  intro name t ht
  obtain ⟨hsound, _⟩ := htidy.sound name t ht
  refine ⟨hsound, fun r hr f v hv => ?_⟩
  obtain ⟨type, htype, hconforms⟩ := hsound.conforming r hr f v hv
  refine ⟨type, htype, fun u w hpart => ?_⟩
  have hw := hpart.conforms hconforms
  refine ⟨hw, ?_⟩
  rintro ms rfl
  exact FieldType.declared_of_conforms hw

/-! ## A store of recipes -/

/-- Recipes with steps. -/
def recipeSchema : EntitySchema where
  name := "Recipe"
  fields := [("Id", .scalar .int), ("Steps", .array (.object [("Text", .scalar .string)]))]

/-- The steps of a recipe. -/
def steps (texts : List String) : Value := .array (texts.map fun s => .object [("Text", .string s)])

/-- Calls with and without success: an entity is added twice, a batch brings a missing and an undeclared field, and
two batches are refused, one for a repeated identity, one for an undeclared member deep inside a record. -/
def recipeCalls : List Call :=
  [.register recipeSchema, .register recipeSchema,
   .insert "RECIPE" [[("Cook", .string "Ada"), ("Id", .int 1), ("Steps", steps ["boil", "serve"])], [("Id", .int 2)]],
   .insert "Recipe" [[("Id", .int 3)], [("Id", .int 2)]],
   .insert "Recipe" [[("Id", .int 4)], [("Id", .int 5), ("Steps", .array [.object [("Cook", .string "Ada")]])]]]

/-- The recipes that the calls leave behind. -/
def keptRecipes : List Record :=
  [[("Id", .int 1), ("Steps", steps ["boil", "serve"])], [("Id", .int 2), ("Steps", .null)]]

/-- The calls leave a sound table of two recipes, and a batch that is refused in the middle changes nothing. -/
theorem calls_keep_tables_sound_recipes :
    (∀ call ∈ recipeCalls, call.WellFormed) ∧
    (∃ t, (performAll {} recipeCalls).table? "recipe" = some t ∧ t.records = keptRecipes ∧ t.Sound) ∧
    (performAll {} recipeCalls).perform (.insert "recipe" [[("Id", .int 6)], [("Id", .int 1)]]) =
      (.error (.invalidRecord "Recipe" "duplicate identity 1"), performAll {} recipeCalls) := by
  have hcalls : ∀ call ∈ recipeCalls, call.WellFormed := by
    have hsorted : Dict.Sorted recipeSchema.fields :=
      Dict.sorted_iff_names.mpr (by decide +kernel)
    simp [recipeCalls, Call.WellFormed, hsorted]
  obtain ⟨hsound, hrefused, _⟩ := calls_keep_tables_sound hcalls rfl
  refine ⟨hcalls, ?_, ?_⟩
  · have hkept : ((performAll {} recipeCalls).table? "recipe").map Table.records = some keptRecipes := by
      decide +kernel
    obtain ⟨t, ht, hrecords⟩ := Option.map_eq_some_iff.mp hkept
    exact ⟨t, ht, hrecords, (hsound "recipe" t ht).1⟩
  · have hreply : ((performAll {} recipeCalls).perform (.insert "recipe" [[("Id", .int 6)], [("Id", .int 1)]])).1 =
        .error (.invalidRecord "Recipe" "duplicate identity 1") := by
      decide +kernel
    exact Prod.ext hreply (hrefused _ _ _ (Prod.ext hreply rfl))

end Store

end GuardedQuery
