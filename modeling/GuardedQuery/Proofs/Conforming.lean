import GuardedQuery.Proofs.Dict
import GuardedQuery.Proofs.Outcome
import GuardedQuery.Schema.Entity

/-!
# Conformed records

Conforming a record keeps the values of the declared fields and fills in `null` for those that the record lacks. It
fails for the first declared field, in the order of the names, whose value does not conform. What has been conformed
is not changed by conforming it again.

## Main definitions

* `EntitySchema.Misfits`: declared fields whose value in a record does not conform.
* `EntitySchema.FirstMisfit`: what is reported of a record.

## Main statements

* `EntitySchema.conform_eq_ok_iff`: the conformed record.
* `EntitySchema.conform_conform`: conforming twice is conforming once.
* `EntitySchema.firstMisfit_of_conform_eq_error`: conforming fails for the first field that does not conform.
* `EntitySchema.exists_conform_eq_error_iff`: when conforming fails.
-/

namespace GuardedQuery

theorem FieldType.conforms_null (t : FieldType) : t.conforms .null = true := by
  cases t <;> simp [conforms, Value.isNull]

namespace EntitySchema

variable {s : EntitySchema} {r r' : Record}

/-- A field conforms if its value does; a value that is missing counts as `null`. -/
theorem conformField_eq (r : Record) (f : String) (t : FieldType) :
    conformField r f t =
      if t.conforms (Record.value r f) then .ok (f, Record.value r f)
      else .error { field := f, expected := t.name } := by
  rw [conformField]
  cases hget : Dict.get? r f with
  | none => simp [Record.value_of_get?_eq_none hget, t.conforms_null]
  | some v => simp [Record.value_of_get? hget]

theorem conform_eq_mapM (s : EntitySchema) (r : Record) :
    s.conform r = s.fields.mapM fun p => conformField r p.1 p.2 := rfl

/-! ## Good outcomes -/

/-- **A record conforms if the values of all declared fields do, and these values make the conformed record.** -/
theorem conform_eq_ok_iff : s.conform r = .ok r' ↔
    (∀ p ∈ s.fields, p.2.conforms (Record.value r p.1) = true) ∧
      r' = s.fields.map fun p => (p.1, Record.value r p.1) := by
  rw [conform_eq_mapM, Outcome.mapM_eq_ok_iff]
  generalize s.fields = fields
  induction fields generalizing r' with
  | nil => simp
  | cons p rest ih =>
    rw [List.forall₂_cons_left_iff, conformField_eq, List.forall_mem_cons, List.map_cons]
    by_cases hconforms : p.2.conforms (Record.value r p.1) = true
    · simp [hconforms, ih, and_assoc]
    · simp [hconforms]

/-- A conformed record has the declared fields, in the order of their names. -/
theorem names_of_conform (h : s.conform r = .ok r') : Dict.names r' = Dict.names s.fields := by
  obtain ⟨_, rfl⟩ := conform_eq_ok_iff.mp h
  simp [Dict.names]

/-- Each declared field has the value that it had. -/
theorem get?_of_conform (h : s.conform r = .ok r') {f : String} (hf : s.hasField f = true) :
    Dict.get? r' f = some (Record.value r f) := by
  obtain ⟨_, rfl⟩ := conform_eq_ok_iff.mp h
  rw [Dict.get?_map_names (Record.value r), if_pos ((Dict.contains_iff s.fields f).mp hf)]

/-- Conforming twice is conforming once. -/
theorem conform_conform (h : s.conform r = .ok r') : s.conform r' = .ok r' := by
  obtain ⟨hconforms, hr'⟩ := conform_eq_ok_iff.mp h
  have hvalue : ∀ p ∈ s.fields, Record.value r' p.1 = Record.value r p.1 := fun p hp =>
    Record.value_of_get? (get?_of_conform h ((Dict.contains_iff s.fields p.1).mpr (List.mem_map_of_mem hp)))
  refine conform_eq_ok_iff.mpr ⟨fun p hp => ?_, ?_⟩
  · rw [hvalue p hp]
    exact hconforms p hp
  · rw [hr']
    refine List.map_congr_left fun p hp => ?_
    rw [← hr', hvalue p hp]

/-- A conformed record has exactly the declared fields, and its values conform. -/
theorem conform_spec {s : EntitySchema} {r r' : Record} (h : s.conform r = .ok r') :
    Dict.names r' = Dict.names s.fields ∧
      ∀ f v, Dict.get? r' f = some v → ∃ t, s.fieldType? f = some t ∧ t.conforms v = true := by
  refine ⟨names_of_conform h, fun f v hv => ?_⟩
  have hf : f ∈ Dict.names s.fields := names_of_conform h ▸ List.mem_map_of_mem (Dict.mem_of_get? hv)
  obtain ⟨t, ht⟩ := Option.isSome_iff_exists.mp ((Dict.contains_iff s.fields f).mpr hf)
  obtain rfl : Record.value r f = v :=
    Option.some.inj ((get?_of_conform h ((Dict.contains_iff s.fields f).mpr hf)).symm.trans hv)
  exact ⟨t, ht, (conform_eq_ok_iff.mp h).1 _ (Dict.mem_of_get? ht)⟩

/-- The values of a conformed record are those of the record, and nulls. -/
theorem wellFormed_conform {s : EntitySchema} {r r' : Record} (hr : (Value.object r).WellFormed)
    (h : s.conform r = .ok r') : ∀ m ∈ r', m.2.WellFormed := by
  obtain ⟨_, rfl⟩ := conform_eq_ok_iff.mp h
  intro m hm
  obtain ⟨p, _, rfl⟩ := List.mem_map.mp hm
  cases hget : Dict.get? r p.1 with
  | none => rw [Record.value_of_get?_eq_none hget]; trivial
  | some v =>
    rw [Record.value_of_get? hget]
    exact Value.wellFormedMembers_iff.mp hr.2 (p.1, v) (Dict.mem_of_get? hget)

/-! ## Failures -/

/-- A declared field has a value that does not conform. -/
def Misfits (s : EntitySchema) (r : Record) (f : String) : Prop :=
  ∃ t v, s.fieldType? f = some t ∧ Dict.get? r f = some v ∧ t.conforms v = false

/-- A field is the first one, in the order of the names, whose value does not conform, and its type is the expected
one. -/
structure FirstMisfit (s : EntitySchema) (r : Record) (e : Nonconforming) : Prop where
  /-- The value of the field does not conform. -/
  misfits : s.Misfits r e.field
  /-- The name of the declared type is expected. -/
  expected : (s.fieldType? e.field).map FieldType.name = some e.expected
  /-- The values of earlier fields conform. -/
  first : ∀ f, f < e.field → ¬s.Misfits r f

/-- Only a value that is there can fail to conform. -/
theorem get?_of_nonconforming {t : FieldType} {f : String} (h : t.conforms (Record.value r f) = false) :
    Dict.get? r f = some (Record.value r f) := by
  cases hget : Dict.get? r f with
  | none =>
    rw [Record.value_of_get?_eq_none hget, t.conforms_null] at h
    cases h
  | some v => rw [Record.value_of_get? hget]

/-- Conforming fails for the first declaration that the record does not conform to. -/
theorem exists_split_of_conform_eq_error {e : Nonconforming} (h : s.conform r = .error e) :
    ∃ before t after, s.fields = before ++ (e.field, t) :: after ∧
      (∀ p ∈ before, p.2.conforms (Record.value r p.1) = true) ∧
      t.conforms (Record.value r e.field) = false ∧ e.expected = t.name := by
  rw [conform_eq_mapM, Outcome.mapM_eq_error_iff] at h
  obtain ⟨before, ⟨f, t⟩, after, hsplit, hbefore, hfails⟩ := h
  simp only [conformField_eq] at hbefore hfails
  split at hfails
  · cases hfails
  · rename_i hconforms
    obtain rfl := Except.error.inj hfails
    refine ⟨before, t, after, hsplit, fun p hp => ?_, by simpa using hconforms, rfl⟩
    obtain ⟨b, hb⟩ := hbefore p hp
    by_contra hmisfit
    rw [if_neg hmisfit] at hb
    cases hb

/-- A record does not conform because of the value of a declared field. -/
theorem exists_of_conform_eq_error {s : EntitySchema} {record : Record} {e : Nonconforming}
    (h : s.conform record = .error e) :
    ∃ type v, (e.field, type) ∈ s.fields ∧ Dict.get? record e.field = some v ∧ type.conforms v = false ∧
      e.expected = type.name := by
  obtain ⟨before, t, after, hsplit, _, hfails, hexpected⟩ := exists_split_of_conform_eq_error h
  have hmem : (e.field, t) ∈ s.fields := hsplit ▸ List.mem_append_right before List.mem_cons_self
  exact ⟨t, _, hmem, get?_of_nonconforming hfails, hfails, hexpected⟩

/-- **Conforming fails for the first field, in the order of the names, whose value does not conform.** -/
theorem firstMisfit_of_conform_eq_error (hs : Dict.Sorted s.fields) {e : Nonconforming} (h : s.conform r = .error e) :
    s.FirstMisfit r e := by
  obtain ⟨before, t, after, hsplit, hbefore, hfails, hexpected⟩ := exists_split_of_conform_eq_error h
  have htype : s.fieldType? e.field = some t :=
    (Dict.get?_eq_some_iff hs.nodup_names).mpr (hsplit ▸ List.mem_append_right before List.mem_cons_self)
  refine ⟨⟨t, _, htype, get?_of_nonconforming hfails, hfails⟩, by rw [htype, Option.map_some, hexpected], ?_⟩
  rintro f hlt ⟨u, v, hu, hv, hmisfit⟩
  have hmem : (f, u) ∈ before ++ (e.field, t) :: after := hsplit ▸ Dict.mem_of_get? hu
  have hlater : ∀ p ∈ (e.field, t) :: after, ¬p.1 < e.field := by
    rw [Dict.Sorted, hsplit, List.pairwise_append] at hs
    have hafter := (List.pairwise_cons.mp hs.2.1).1
    exact List.forall_mem_cons.mpr ⟨lt_irrefl e.field, fun p hp => lt_asymm (hafter p hp)⟩
  rcases List.mem_append.mp hmem with hearlier | hother
  · have hconforms := hbefore (f, u) hearlier
    rw [Record.value_of_get? hv, hmisfit] at hconforms
    cases hconforms
  · exact hlater (f, u) hother hlt

/-- Conforming fails if and only if a declared field has a value that does not conform. -/
theorem exists_conform_eq_error_iff (hs : Dict.Sorted s.fields) :
    (∃ e, s.conform r = .error e) ↔ ∃ f, s.Misfits r f := by
  constructor
  · rintro ⟨e, he⟩
    exact ⟨e.field, (firstMisfit_of_conform_eq_error hs he).misfits⟩
  · rintro ⟨f, t, v, ht, hv, hmisfit⟩
    cases hconform : s.conform r with
    | error e => exact ⟨e, rfl⟩
    | ok r' =>
      have hconforms := (conform_eq_ok_iff.mp hconform).1 (f, t) (Dict.mem_of_get? ht)
      rw [Record.value_of_get? hv, hmisfit] at hconforms
      cases hconforms

end EntitySchema

end GuardedQuery
