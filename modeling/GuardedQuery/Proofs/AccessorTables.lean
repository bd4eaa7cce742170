import GuardedQuery.Proofs.Conforming
import GuardedQuery.Schema.Accessor
import Mathlib.Data.List.Induction

/-!
# Records of accessor tables

A table keeps two lists of fields: the declared types in its schema, and the readers. Whatever is declared in whatever
order, both name the same fields, each of them once, and both go by the last declaration of a field. So the record of
an item has exactly the declared fields, and if it conforms, then conforming does not change it.

## Main definitions

* `AccessorTable.lastDeclared?`: the last declaration of a field.
* `AccessorTable.InStep`: tables whose schema and readers name the same fields.

## Main statements

* `AccessorTable.inStep_ofDeclarations`: declarations keep the schema and the readers in step.
* `AccessorTable.get?_ofDeclarations`: an item is read by the last declaration.
* `EntitySchema.conform_idempotent`: what conforming does to records, and to the records of tables.
-/

namespace GuardedQuery

namespace AccessorTable

variable {ε : Type}

/-! ## Readers -/

/-- A field is read by its reader. -/
theorem get?_eq (t : AccessorTable ε) (item : ε) (f : String) :
    t.get? item f = Dict.get? (t.getters.map fun g => (g.1, g.2 item)) f := by
  rw [get?]
  induction t.getters with
  | nil => rfl
  | cons g rest ih =>
    rw [List.map_cons, Dict.get?, List.find?_cons]
    by_cases hf : g.1 = f
    · simp [hf]
    · have hother : (g.1 == f) = false := by simpa using hf
      rw [hother, if_neg hf]
      exact ih

/-- A field that is declared has its new reader, and every other field the one that it had. -/
theorem get?_withField (t : AccessorTable ε) (name : String) (type : FieldType) (getter : ε → Value) (item : ε)
    (f : String) :
    (t.withField name type getter).get? item f = if name = f then some (getter item) else t.get? item f := by
  rw [get?, get?, withField, List.find?_append]
  by_cases hf : name = f
  · subst hf
    have hnone : (t.getters.filter fun g => g.1 ≠ name).find? (fun g => g.1 == name) = none := by
      refine List.find?_eq_none.mpr fun g hg => ?_
      simpa using (List.mem_filter.mp hg).2
    rw [hnone, if_pos rfl]
    simp
  · have hsame : (t.getters.filter fun g => g.1 ≠ name).find? (fun g => g.1 == f) =
        t.getters.find? fun g => g.1 == f := by
      rw [List.find?_filter]
      congr 1
      funext g
      by_cases hg : g.1 = f
      · simp [hg, Ne.symm hf]
      · simp [hg]
    rw [hsame, if_neg hf]
    simp [hf]

/-! ## Declarations -/

theorem ofDeclarations_concat (entity : String) (ds : List (Declaration ε)) (d : Declaration ε) :
    ofDeclarations entity (ds ++ [d]) = (ofDeclarations entity ds).declare d := by
  rw [ofDeclarations, List.foldl_append]
  rfl

/-- What a declaration says of a field, if it is about the field. -/
def Declaration.about? (f : String) : Declaration ε → Option (FieldType × (ε → Value))
  | .identity _ => none
  | .field name type getter => if name = f then some (type, getter) else none

/-- What the last declaration of a field says. -/
def lastDeclared? (ds : List (Declaration ε)) (f : String) : Option (FieldType × (ε → Value)) :=
  ds.reverse.findSome? (Declaration.about? f)

theorem lastDeclared?_concat (ds : List (Declaration ε)) (d : Declaration ε) (f : String) :
    lastDeclared? (ds ++ [d]) f = (d.about? f).or (lastDeclared? ds f) := by
  rw [lastDeclared?, List.reverse_append, List.reverse_singleton, List.singleton_append, List.findSome?_cons]
  cases d.about? f <;> rfl

/-- **An item is read by the last declaration of a field.** -/
theorem get?_ofDeclarations (entity : String) (ds : List (Declaration ε)) (item : ε) (f : String) :
    (ofDeclarations entity ds).get? item f = (lastDeclared? ds f).map fun d => d.2 item := by
  induction ds using List.reverseRecOn with
  | nil => rfl
  | append_singleton ds d ih =>
    rw [ofDeclarations_concat, lastDeclared?_concat]
    cases d with
    | identity field => exact ih
    | field name type getter =>
      rw [declare, get?_withField, ih, Declaration.about?]
      split <;> rfl

/-- A field has the type of its last declaration. -/
theorem fieldType?_ofDeclarations (entity : String) (ds : List (Declaration ε)) (f : String) :
    (ofDeclarations entity ds).schema.fieldType? f = (lastDeclared? ds f).map Prod.fst := by
  induction ds using List.reverseRecOn with
  | nil => rfl
  | append_singleton ds d ih =>
    rw [ofDeclarations_concat, lastDeclared?_concat]
    cases d with
    | identity field => exact ih
    | field name type getter =>
      rw [declare, withField, EntitySchema.withField, EntitySchema.fieldType?, Dict.get?_insert,
        ← EntitySchema.fieldType?, ih, Declaration.about?]
      split <;> rfl

/-! ## Types and readers -/

/-- A table whose schema and readers name the same fields, each of them once. -/
structure InStep (t : AccessorTable ε) : Prop where
  /-- The declared fields are in order. -/
  sorted : Dict.Sorted t.schema.fields
  /-- No field has two readers. -/
  nodup : (t.getters.map Prod.fst).Nodup
  /-- A field has a reader if and only if it has a type. -/
  mem_iff : ∀ f, f ∈ t.getters.map Prod.fst ↔ f ∈ Dict.names t.schema.fields

theorem inStep_empty (entity : String) : InStep (empty entity : AccessorTable ε) :=
  ⟨List.Pairwise.nil, List.nodup_nil, fun _ => Iff.rfl⟩

/-- A declaration keeps the schema and the readers in step. -/
theorem InStep.declare {t : AccessorTable ε} (h : t.InStep) (d : Declaration ε) : (t.declare d).InStep := by
  cases d with
  | identity field => exact ⟨h.sorted, h.nodup, h.mem_iff⟩
  | field name type getter =>
    have hnames : (t.withField name type getter).getters.map Prod.fst =
        (t.getters.map Prod.fst).filter (fun f => f ≠ name) ++ [name] := by
      rw [withField, List.map_append, List.filter_map]
      rfl
    refine ⟨Dict.sorted_insert h.sorted name type, ?_, fun f => ?_⟩
    · rw [AccessorTable.declare, hnames, List.nodup_append]
      refine ⟨h.nodup.filter _, by simp, ?_⟩
      intro f hf g hg
      rw [List.mem_singleton.mp hg]
      simpa using (List.mem_filter.mp hf).2
    · rw [AccessorTable.declare, hnames]
      change _ ↔ f ∈ Dict.names (Dict.insert t.schema.fields name type)
      rw [Dict.mem_names_insert, List.mem_append, List.mem_filter, List.mem_singleton, h.mem_iff]
      by_cases hf : f = name
      · simp [hf]
      · simp [hf]

/-- **Declarations keep the schema and the readers in step.** -/
theorem inStep_ofDeclarations (entity : String) (ds : List (Declaration ε)) : (ofDeclarations entity ds).InStep := by
  induction ds using List.reverseRecOn with
  | nil => exact inStep_empty entity
  | append_singleton ds d ih =>
    rw [ofDeclarations_concat]
    exact ih.declare d

namespace InStep

variable {t : AccessorTable ε}

/-- The readers have the declared fields. -/
theorem perm_names (h : t.InStep) : (t.getters.map Prod.fst).Perm (Dict.names t.schema.fields) :=
  (List.perm_ext_iff_of_nodup h.nodup h.sorted.nodup_names).mpr h.mem_iff

theorem nodup_values (h : t.InStep) (item : ε) : ((t.getters.map fun g => (g.1, g.2 item)).map Prod.fst).Nodup := by
  rw [List.map_map]
  exact h.nodup

/-- The record of an item has the values that the table reads from the item. -/
theorem get?_toRecord (h : t.InStep) (item : ε) (f : String) : Dict.get? (t.toRecord item) f = t.get? item f := by
  rw [toRecord, Dict.get?_ofList (h.nodup_values item), get?_eq]

/-- The record of an item has exactly the declared fields. -/
theorem names_toRecord (h : t.InStep) (item : ε) : Dict.names (t.toRecord item) = Dict.names t.schema.fields := by
  refine Dict.names_eq_of_mem_iff (Dict.sorted_ofList _) h.sorted fun f => ?_
  rw [toRecord, Dict.mem_names_ofList, List.map_map, ← h.mem_iff]
  rfl

/-- Conforming does not change the record of an item. -/
theorem conform_toRecord (h : t.InStep) {item : ε} {r : Record} (hr : t.schema.conform (t.toRecord item) = .ok r) :
    r = t.toRecord item := by
  have hnames : Dict.names r = Dict.names (t.toRecord item) :=
    (EntitySchema.names_of_conform hr).trans (h.names_toRecord item).symm
  have hsorted : Dict.Sorted (t.toRecord item) := Dict.sorted_ofList _
  refine Dict.eq_of_get? hnames (hnames ▸ hsorted.nodup_names) fun f => ?_
  by_cases hf : f ∈ Dict.names t.schema.fields
  · rw [EntitySchema.get?_of_conform hr ((Dict.contains_iff _ f).mpr hf)]
    obtain ⟨v, hv⟩ := Option.isSome_iff_exists.mp ((Dict.contains_iff _ f).mpr (h.names_toRecord item ▸ hf))
    rw [hv, Record.value_of_get? hv]
  · rw [(Dict.get?_eq_none_iff r f).mpr (EntitySchema.names_of_conform hr ▸ hf),
      (Dict.get?_eq_none_iff _ f).mpr (h.names_toRecord item ▸ hf)]

end InStep

end AccessorTable

namespace EntitySchema

open AccessorTable (Declaration ofDeclarations lastDeclared?)

/-- **Conforming is idempotent, and leaves the records of accessor tables alone.** A conformed record has exactly the
declared fields, with the values that the record had and `null` where it had none, and is conformed to itself.
Conforming fails if and only if a declared field has a value that does not conform, and then for the first such field in
the order of the names. A table that was made by any declarations has one reader for each declared field; the record of
an item has exactly the declared fields, each with the value that its last declaration reads, and if it conforms, then
it is the conformed record. -/
theorem conform_idempotent {s : EntitySchema} (hs : Dict.Sorted s.fields) (r : Record) :
    (∀ r', s.conform r = .ok r' → Dict.names r' = Dict.names s.fields ∧
      (∀ f v, s.hasField f = true → Dict.get? r f = some v → Dict.get? r' f = some v) ∧
      (∀ f, s.hasField f = true → Dict.get? r f = none → Dict.get? r' f = some .null) ∧
      s.conform r' = .ok r') ∧
    ((∃ e, s.conform r = .error e) ↔ ∃ f, s.Misfits r f) ∧
    (∀ e, s.conform r = .error e → s.FirstMisfit r e) ∧
    ∀ {ε : Type} (entity : String) (ds : List (Declaration ε)) (t : AccessorTable ε), ofDeclarations entity ds = t →
      (t.getters.map Prod.fst).Nodup ∧ (t.getters.map Prod.fst).Perm (Dict.names t.schema.fields) ∧
      (∀ f, t.schema.fieldType? f = (lastDeclared? ds f).map Prod.fst) ∧
      ∀ item, Dict.names (t.toRecord item) = Dict.names t.schema.fields ∧
        (∀ f, Dict.get? (t.toRecord item) f = t.get? item f ∧
          t.get? item f = (lastDeclared? ds f).map fun d => d.2 item) ∧
        ∀ r, t.schema.conform (t.toRecord item) = .ok r → r = t.toRecord item := by
  refine ⟨fun r' h => ⟨names_of_conform h, fun f v hf hv => ?_, fun f hf hnone => ?_, conform_conform h⟩,
    exists_conform_eq_error_iff hs, fun e => firstMisfit_of_conform_eq_error hs, ?_⟩
  · rw [get?_of_conform h hf, Record.value_of_get? hv]
  · rw [get?_of_conform h hf, Record.value_of_get?_eq_none hnone]
  · rintro ε entity ds _ rfl
    have hstep := AccessorTable.inStep_ofDeclarations entity ds
    refine ⟨hstep.nodup, hstep.perm_names, AccessorTable.fieldType?_ofDeclarations entity ds, fun item =>
      ⟨hstep.names_toRecord item, fun f => ?_, fun _ => hstep.conform_toRecord⟩⟩
    exact ⟨hstep.get?_toRecord item f, AccessorTable.get?_ofDeclarations entity ds item f⟩

/-! ## Parcels -/

/-- Parcels with a code and a weight. The weight is declared twice, first as a text. -/
def parcelDeclarations : List (Declaration (String × Int)) :=
  [.field "Weight" (.scalar .string) fun p => .string p.1, .identity "Code",
   .field "Code" (.scalar .string) fun p => .string p.1, .field "Weight" (.scalar .int) fun p => .int p.2]

/-- The table of parcels. -/
def parcelTable : AccessorTable (String × Int) := ofDeclarations "Parcel" parcelDeclarations

/-- A parcel is read by the last declarations, and its record is conformed to itself. A record with two values that do
not conform is refused for its code, which comes first; one without a code has `null` there, and is then left alone. -/
theorem conform_idempotent_parcel :
    Dict.Sorted parcelTable.schema.fields ∧
    Dict.get? (parcelTable.toRecord ("A1", 7)) "Weight" = some (.int 7) ∧
    (∃ r, parcelTable.schema.conform (parcelTable.toRecord ("A1", 7)) = .ok r ∧ r = parcelTable.toRecord ("A1", 7)) ∧
    parcelTable.schema.FirstMisfit [("Code", .int 1), ("Weight", .string "7")]
      { field := "Code", expected := "string" } ∧
    parcelTable.schema.conform [("Stamp", .int 3), ("Weight", .int 7)] = .ok [("Code", .null), ("Weight", .int 7)] ∧
    parcelTable.schema.conform [("Code", .null), ("Weight", .int 7)] = .ok [("Code", .null), ("Weight", .int 7)] := by
  have hsorted : Dict.Sorted parcelTable.schema.fields := Dict.sorted_iff_names.mpr (by decide +kernel)
  obtain ⟨_, _, hfirst, htables⟩ := conform_idempotent hsorted [("Code", .int 1), ("Weight", .string "7")]
  obtain ⟨hkeeps, _⟩ := conform_idempotent hsorted [("Stamp", .int 3), ("Weight", .int 7)]
  obtain ⟨_, _, _, hitems⟩ := htables "Parcel" parcelDeclarations parcelTable rfl
  obtain ⟨_, hvalues, hunchanged⟩ := hitems ("A1", 7)
  have hparcel : parcelTable.schema.conform (parcelTable.toRecord ("A1", 7)) =
      .ok [("Code", .string "A1"), ("Weight", .int 7)] := by
    decide +kernel
  have hstamped : parcelTable.schema.conform [("Stamp", .int 3), ("Weight", .int 7)] =
      .ok [("Code", .null), ("Weight", .int 7)] := by
    decide +kernel
  refine ⟨hsorted, ?_, ⟨_, hparcel, hunchanged _ hparcel⟩, hfirst _ (by decide +kernel), hstamped,
    (hkeeps _ hstamped).2.2.2⟩
  rw [(hvalues "Weight").1, (hvalues "Weight").2]
  rfl

end EntitySchema

end GuardedQuery
