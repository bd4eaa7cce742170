import GuardedQuery.Proofs.Calls

/-!
# Registrations that fail

Registering an entity with the records of a list of items takes two steps: the entity is added, and then the records
are inserted. Either step changes nothing if it fails, but nothing undoes the first one if the second one fails. So a
registration whose entity is refused leaves the store as it was, and one whose items are refused leaves an entity
without records, which is in the way of every later registration.

## Main definitions

* `Table.Refuses`, `Store.RefusesEntity`: why a record and an entity are refused.
* `Store.Registers`, `Store.HalfRegisters`: what a registration leaves behind that succeeds, and one whose items are
  refused.

## Main statements

* `Table.insertAll_eq_error_iff`: a batch is refused for the first record that its table refuses.
* `Store.registerItems_eq_perform`: registering is a call that adds the entity, and one that adds the records.
* `Store.registration_kept_iff`: a registration that fails leaves the store as it was if and only if the entity is
  refused.
-/

namespace GuardedQuery

/-! ## Refused records -/

namespace Table

/-- Why a table refuses a record. -/
inductive Refuses (t : Table) (record : Record) : StorageError → Prop
  /-- The value of a declared field does not conform. -/
  | mistyped {field : String} {type : FieldType} {v : Value} :
      (field, type) ∈ t.schema.fields → Dict.get? record field = some v → type.conforms v = false →
      Refuses t record (.typeMismatch t.schema.name field type.name)
  /-- The identity is missing or null. -/
  | unidentified {r : Record} :
      t.schema.conform record = .ok r → (Record.value r t.schema.identity).isNull = true →
      Refuses t record (.invalidIdentity t.schema.name t.schema.identity)
  /-- The identity is in use. -/
  | taken {r : Record} :
      t.schema.conform record = .ok r → t.identityText r ∈ t.identities →
      Refuses t record (.invalidRecord t.schema.name s!"duplicate identity {t.identityText r}")

theorem isNull_of_identityText? {t : Table} {r : Record} (h : t.identityText? r = none) :
    (Record.value r t.schema.identity).isNull = true := by
  rw [identityText?, Option.map_eq_none_iff, Predicate.actual?, Option.filter_eq_none_iff] at h
  cases hget : Dict.get? r t.schema.identity with
  | none => simp [Record.value, hget, Value.isNull]
  | some v => simpa [Record.value, hget] using h v hget

/-- An insertion that fails has one of the three reasons. -/
theorem refuses_of_insert {t : Table} {record : Record} {e : StorageError} (h : t.insert record = .error e) :
    t.Refuses record e := by
  rw [insert] at h
  split at h
  · rename_i nonconforming hconform
    obtain rfl := Except.error.inj h
    obtain ⟨type, v, hfield, hget, hconforms, hexpected⟩ := EntitySchema.exists_of_conform_eq_error hconform
    rw [hexpected]
    exact .mistyped hfield hget hconforms
  · rename_i r hconform
    split at h
    · rename_i hidentity
      obtain rfl := Except.error.inj h
      exact .unidentified hconform (isNull_of_identityText? hidentity)
    · rename_i identity hidentity
      obtain ⟨_, rfl⟩ := identityText?_eq_some hidentity
      split at h
      · rename_i hused
        obtain rfl := Except.error.inj h
        exact .taken hconform (by simpa [identityText] using hused)
      · cases h

/-- A batch is refused for the first record that its table, with the records before it, refuses. -/
theorem insertAll_eq_error_iff {t : Table} {batch : List Record} {e : StorageError} :
    t.insertAll batch = .error e ↔
      ∃ before record after u, batch = before ++ record :: after ∧ t.insertAll before = .ok u ∧
        u.insert record = .error e := by
  induction batch generalizing t with
  | nil => simp [insertAll]
  | cons first rest ih =>
    cases hfirst : t.insert first with
    | error e' =>
      simp only [insertAll, hfirst]
      constructor
      · rintro h
        exact ⟨[], first, rest, t, rfl, rfl, h ▸ hfirst⟩
      · rintro ⟨before, record, after, u, hbatch, hbefore, hrecord⟩
        cases before with
        | nil =>
          obtain ⟨rfl, rfl⟩ := List.cons.inj hbatch
          obtain rfl := Except.ok.inj hbefore
          exact hfirst.symm.trans hrecord
        | cons b before =>
          obtain ⟨rfl, _⟩ := List.cons.inj hbatch
          simp [insertAll, hfirst] at hbefore
    | ok t' =>
      simp only [insertAll, hfirst, ih]
      constructor
      · rintro ⟨before, record, after, u, rfl, hbefore, hrecord⟩
        exact ⟨first :: before, record, after, u, rfl, by simpa [insertAll, hfirst] using hbefore, hrecord⟩
      · rintro ⟨before, record, after, u, hbatch, hbefore, hrecord⟩
        cases before with
        | nil =>
          obtain ⟨rfl, rfl⟩ := List.cons.inj hbatch
          obtain rfl := Except.ok.inj hbefore
          simp [hfirst] at hrecord
        | cons b before =>
          obtain ⟨rfl, hrest⟩ := List.cons.inj hbatch
          exact ⟨before, record, after, u, hrest, by simpa [insertAll, hfirst] using hbefore, hrecord⟩

end Table

namespace Store

/-! ## Refused entities -/

/-- Why a store refuses an entity. -/
inductive RefusesEntity (s : Store) (schema : EntitySchema) : StorageError → Prop
  /-- The identity is not a declared scalar. -/
  | unidentified : schema.hasValidIdentity = false →
      RefusesEntity s schema (.invalidIdentity schema.name schema.identity)
  /-- The entity is already there. -/
  | taken : schema.hasValidIdentity = true → s.table? schema.name ≠ none →
      RefusesEntity s schema (.duplicateEntity schema.name)

theorem register_eq_error_iff {s : Store} {schema : EntitySchema} {e : StorageError} :
    s.register schema = .error e ↔ s.RefusesEntity schema e := by
  have hcontains : Dict.contains s.tables schema.key = true ↔ s.table? schema.name ≠ none :=
    Option.isSome_iff_ne_none
  rw [register, Table.ofSchema]
  by_cases hvalid : schema.hasValidIdentity = true
  · by_cases htaken : Dict.contains s.tables schema.key = true
    · simp only [hvalid, htaken, if_true]
      constructor
      · rintro ⟨⟩
        exact .taken hvalid (hcontains.mp htaken)
      · rintro (h | ⟨_, _⟩)
        · simp [hvalid] at h
        · rfl
    · simp only [hvalid, htaken, if_true]
      constructor
      · rintro ⟨⟩
      · rintro (h | ⟨_, h⟩)
        · simp [hvalid] at h
        · exact absurd (hcontains.mpr h) htaken
  · simp only [hvalid]
    constructor
    · rintro ⟨⟩
      exact .unidentified (by simpa using hvalid)
    · rintro (h | ⟨h, _⟩)
      · rfl
      · exact absurd h hvalid

/-! ## Registrations -/

variable {ε : Type}

/-- In place, registering is a call that adds the entity, and then one that adds the records. The first one stays
whatever becomes of the second one. -/
theorem registerItems_eq_perform {s : Store} (hs : Dict.Sorted s.tables) (accessors : AccessorTable ε)
    (items : List ε) :
    s.registerItems accessors items =
      match s.perform (.register accessors.schema) with
      | (.error e, s) => (.error e, s)
      | (.ok _, s) =>
        let (reply, s) := s.perform (.insert accessors.schema.name (items.map accessors.toRecord))
        (reply.map fun _ => (), s) := by
  rw [registerItems, perform_register]
  cases hregister : s.register accessors.schema with
  | error e => rfl
  | ok u =>
    have hsorted : Dict.Sorted u.tables := by
      obtain ⟨_, _, rfl⟩ := register_eq_ok_iff.mp hregister
      exact Dict.sorted_insert hs _ _
    simp only [perform_insert hsorted]
    cases u.insert accessors.schema.name (items.map accessors.toRecord) with
    | error e => rfl
    | ok s' => rfl

/-- The entity is added, with the records of all items. -/
structure Registers (s s' : Store) (schema : EntitySchema) (records : List Record) : Prop where
  /-- There was no such entity. -/
  free : s.table? schema.name = none
  /-- The table of the entity has the conformed records, in order, and the other tables are as they were. -/
  filled : ∃ added, List.Forall₂ (fun r r' => schema.conform r = .ok r') records added ∧
    ∀ name, s'.table? name =
      if entityKey name = schema.key then
        some { schema, records := added, identities := added.map ({ schema } : Table).identityText }
      else s.table? name

/-- The entity is added, and the records are refused. -/
structure HalfRegisters (s s' : Store) (schema : EntitySchema) (records : List Record) (e : StorageError) :
    Prop where
  /-- There was no such entity. -/
  free : s.table? schema.name = none
  /-- The table of the entity is empty, and the other tables are as they were. -/
  emptied : ∀ name, s'.table? name = if entityKey name = schema.key then some { schema } else s.table? name
  /-- A record is refused, once those before it are in the table. -/
  refused : ∃ before record after u, records = before ++ record :: after ∧
    ({ schema } : Table).insertAll before = .ok u ∧ u.Refuses record e
  /-- Every later registration of the entity is refused as a second one, whatever its items. -/
  stuck : ∀ (δ : Type) (accessors : AccessorTable δ) (items : List δ),
    accessors.schema.key = schema.key → accessors.schema.hasValidIdentity = true →
      s'.registerItems accessors items = (.error (.duplicateEntity accessors.schema.name), s')
  /-- What is left to do is to insert records: that leads where a registration with them would have led. -/
  mended : ∀ (δ : Type) (accessors : AccessorTable δ) (items : List δ) (s'' : Store), accessors.schema = schema →
    (s'.insert schema.name (items.map accessors.toRecord) = .ok s'' ↔
      s.registerItems accessors items = (.ok (), s''))

/-- Once the entity is added, the records go into its empty table. -/
theorem insert_register {s u : Store} {schema : EntitySchema} (h : s.register schema = .ok u)
    (records : List Record) :
    u.insert schema.name records =
      (({ schema } : Table).insertAll records).map fun t =>
        { tables := Dict.insert u.tables schema.key t } := by
  have htable : u.table? schema.name = some { schema } := by
    rw [(register_eq_ok h).2.2]
    exact if_pos rfl
  rw [insert, table, htable]
  change ((({ schema } : Table).insertAll records) >>= fun t => pure _) = _
  cases ({ schema } : Table).insertAll records with
  | error e => rfl
  | ok t => rfl

/-- Records that are all accepted fill the table of the new entity. -/
theorem registers_of_insertAll {s u : Store} {schema : EntitySchema} (h : s.register schema = .ok u)
    {records : List Record} {t : Table} (hall : ({ schema } : Table).insertAll records = .ok t) :
    s.Registers { tables := Dict.insert u.tables schema.key t } schema records := by
  obtain ⟨_, hfree, hlookUp⟩ := register_eq_ok h
  obtain ⟨added, hadded, rfl⟩ := Table.insertAll_eq_ok hall
  refine ⟨hfree, added, hadded, fun name => ?_⟩
  rw [table?, Dict.get?_insert]
  by_cases hname : entityKey name = schema.key
  · simp [hname]
  · rw [if_neg (Ne.symm hname), if_neg hname]
    exact (hlookUp name).trans (if_neg hname)

/-- A record that is refused leaves the new entity without records. -/
theorem halfRegisters_of_insertAll {s u : Store} {schema : EntitySchema} (h : s.register schema = .ok u)
    {records : List Record} {e : StorageError} (hall : ({ schema } : Table).insertAll records = .error e) :
    s.HalfRegisters u schema records e := by
  obtain ⟨_, hfree, hlookUp⟩ := register_eq_ok h
  obtain ⟨before, record, after, t, hrecords, hbefore, hrecord⟩ := Table.insertAll_eq_error_iff.mp hall
  refine ⟨hfree, hlookUp, ⟨before, record, after, t, hrecords, hbefore, Table.refuses_of_insert hrecord⟩, ?_, ?_⟩
  · intro δ accessors items hkey hvalid
    have htaken : u.table? accessors.schema.name ≠ none := by
      rw [hlookUp]
      exact (if_pos hkey).trans_ne (Option.some_ne_none _)
    rw [registerItems, register_eq_error_iff.mpr (.taken hvalid htaken)]
  · rintro δ accessors items s'' rfl
    simp only [registerItems, h]
    cases u.insert accessors.schema.name (items.map accessors.toRecord) with
    | error e => simp
    | ok v => simp

/-- **A registration is not all or nothing**: one that succeeds adds the entity with the records of all items, and
one that fails leaves the store as it was if and only if the entity itself is refused. If an item is refused instead,
the entity stays, without records, and keeps the same registration from ever succeeding. -/
theorem registration_kept_iff (s : Store) (accessors : AccessorTable ε) (items : List ε) :
    (∀ s', s.registerItems accessors items = (.ok (), s') →
      s.Registers s' accessors.schema (items.map accessors.toRecord)) ∧
    ∀ e s', s.registerItems accessors items = (.error e, s') →
      (s' = s ↔ s.RefusesEntity accessors.schema e) ∧
      (s' ≠ s → s.HalfRegisters s' accessors.schema (items.map accessors.toRecord) e) := by
  cases hregister : s.register accessors.schema with
  | error e =>
    have hresult : s.registerItems accessors items = (.error e, s) := by rw [registerItems, hregister]
    have hrefused := register_eq_error_iff.mp hregister
    rw [hresult]
    refine ⟨fun s' h => (by cases h), ?_⟩
    rintro _ _ ⟨⟩
    exact ⟨iff_of_true rfl hrefused, fun hne => absurd rfl hne⟩
  | ok u =>
    have hinsert := insert_register hregister (items.map accessors.toRecord)
    cases hall : ({ schema := accessors.schema } : Table).insertAll (items.map accessors.toRecord) with
    | ok t =>
      have hresult : s.registerItems accessors items =
          (.ok (), { tables := Dict.insert u.tables accessors.schema.key t }) := by
        simp only [registerItems, hregister, hinsert, hall, Except.map]
      rw [hresult]
      refine ⟨?_, fun e s' h => (by cases h)⟩
      rintro _ ⟨⟩
      exact registers_of_insertAll hregister hall
    | error e =>
      have hresult : s.registerItems accessors items = (.error e, u) := by
        simp only [registerItems, hregister, hinsert, hall, Except.map]
      have hhalf := halfRegisters_of_insertAll hregister hall
      have hchanged : u ≠ s := by
        rintro rfl
        have hthere := hhalf.emptied accessors.schema.name
        rw [hhalf.free] at hthere
        exact Option.some_ne_none _ (hthere.trans (if_pos rfl)).symm
      have hadmitted : ¬ s.RefusesEntity accessors.schema e := by
        rw [← register_eq_error_iff, hregister]
        simp
      rw [hresult]
      refine ⟨fun s' h => (by cases h), ?_⟩
      rintro _ _ ⟨⟩
      exact ⟨iff_of_false hchanged hadmitted, fun _ => hhalf⟩

/-! ## Sensors -/

/-- Sensors that are their own numbers. -/
def sensorAccessors : AccessorTable Value := (AccessorTable.empty "Sensor").withField "Id" (.scalar .int) id

/-- A sensor without a number is refused, but the entity is there from then on: the sensors that are numbered are
refused as registered twice, and can only be inserted. -/
theorem registration_kept_iff_sensor :
    ∃ s', registerItems {} sensorAccessors [.int 1, .null] = (.error (.invalidIdentity "Sensor" "Id"), s') ∧
      s' ≠ {} ∧ (s'.table? "sensor").map Table.records = some [] ∧
      s'.registerItems sensorAccessors [.int 1] = (.error (.duplicateEntity "Sensor"), s') ∧
      ∃ s'', s'.insert "Sensor" [[("Id", .int 1)]] = .ok s'' ∧
        Registers {} s'' sensorAccessors.schema [[("Id", .int 1)]] := by
  obtain ⟨s', hfailed⟩ : ∃ s', registerItems {} sensorAccessors [.int 1, .null] =
      (.error (.invalidIdentity "Sensor" "Id"), s') := by
    have hreply : (registerItems {} sensorAccessors [.int 1, .null]).1 =
        .error (.invalidIdentity "Sensor" "Id") := by
      decide +kernel
    exact ⟨_, Prod.ext hreply rfl⟩
  have hempty : (s'.table? "sensor").map Table.records = some [] := by
    rw [← show (registerItems {} sensorAccessors [.int 1, .null]).2 = s' from congrArg Prod.snd hfailed]
    decide +kernel
  have hchanged : s' ≠ {} := by
    rintro rfl
    simp [table?, Dict.get?] at hempty
  have hhalf := ((registration_kept_iff {} sensorAccessors [.int 1, .null]).2 _ s' hfailed).2 hchanged
  have hnumbered : [Value.int 1].map sensorAccessors.toRecord = [[("Id", .int 1)]] := by decide +kernel
  obtain ⟨s'', hregistered⟩ : ∃ s'', registerItems {} sensorAccessors [.int 1] = (.ok (), s'') := by
    have hreply : (registerItems {} sensorAccessors [.int 1]).1 = .ok () := by decide +kernel
    exact ⟨_, Prod.ext hreply rfl⟩
  refine ⟨s', hfailed, hchanged, hempty, hhalf.stuck _ sensorAccessors _ rfl (by decide +kernel), s'', ?_, ?_⟩
  · exact hnumbered ▸ (hhalf.mended _ sensorAccessors _ s'' rfl).mpr hregistered
  · exact hnumbered ▸ (registration_kept_iff {} sensorAccessors [.int 1]).1 s'' hregistered

end Store

end GuardedQuery
