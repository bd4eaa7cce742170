import GuardedQuery.Proofs.Storage
import GuardedQuery.Storage.DataFile

/-!
# Stores that are filled from data

A store may be filled in one go from declarations and records, as a data file lists them. If these are well formed,
the store can come about, and it has no entities but the declared ones. Whether data is well formed can be computed,
so it can be checked of given records.

## Main definitions

* `EntityData.WellFormed`: declarations with sorted fields, and records with well-formed values.
* `Store.ofEntities`: the store of entities with their records.

## Main statements

* `Store.reachable_ofEntities`: a store that is filled with well-formed data can come about.
* `Store.schema_ofEntities`: it has no entities but the declared ones.
-/

namespace GuardedQuery

/-! ## Well-formed values can be told -/

namespace Dict

instance {α : Type} (d : Dict α) : Decidable (Sorted d) :=
  inferInstanceAs (Decidable (List.Pairwise (fun a b => a.1 < b.1) d))

end Dict

namespace Value

mutual

/-- Decides whether a value is well formed, by recursion on it. -/
def decWellFormed : (v : Value) → Decidable v.WellFormed
  | null | bool _ | float _ | string _ => isTrue trivial
  | int n => inferInstanceAs (Decidable (int64Min ≤ n ∧ n ≤ uint64Max))
  | array items => decWellFormedItems items
  | object ms =>
    let _ := decWellFormedMembers ms
    inferInstanceAs (Decidable (Dict.Sorted ms ∧ WellFormedMembers ms))

/-- Decides whether the items of an array are well formed. -/
def decWellFormedItems : (items : List Value) → Decidable (WellFormedItems items)
  | [] => isTrue trivial
  | v :: rest =>
    let _ := decWellFormed v
    let _ := decWellFormedItems rest
    inferInstanceAs (Decidable (WellFormed v ∧ WellFormedItems rest))

/-- Decides whether the members of an object are well formed. -/
def decWellFormedMembers : (ms : List (String × Value)) → Decidable (WellFormedMembers ms)
  | [] => isTrue trivial
  | (_, v) :: rest =>
    let _ := decWellFormed v
    let _ := decWellFormedMembers rest
    inferInstanceAs (Decidable (WellFormed v ∧ WellFormedMembers rest))

end

instance (v : Value) : Decidable v.WellFormed := decWellFormed v

end Value

/-- The declared fields are in order, and the records hold well-formed values. -/
def EntityData.WellFormed (data : EntityData) : Prop :=
  Dict.Sorted data.schema.fields ∧ ∀ r ∈ data.records, (Value.object r).WellFormed

instance (data : EntityData) : Decidable data.WellFormed :=
  inferInstanceAs (Decidable (Dict.Sorted data.schema.fields ∧ ∀ r ∈ data.records, (Value.object r).WellFormed))

namespace Store

variable {entities : List EntityData} {data : EntityData} {s s' : Store}

/-- An entity that is added with well-formed records to a store that can come about gives such a store. -/
theorem Reachable.addData (hs : s.Reachable) (hdata : data.WellFormed) (h : s.addData data = .ok s') :
    s'.Reachable := by
  obtain ⟨registered, hregister, hinsert⟩ := Outcome.bind_eq_ok_iff.mp h
  exact .insert (.register hs hdata.1 hregister) hdata.2 hinsert

/-- Adding an entity adds no other one. -/
theorem Reachable.schema_of_addData (hs : s.Reachable) (hdata : data.WellFormed) (h : s.addData data = .ok s')
    {name : String} {schema : EntitySchema} (hschema : s'.schema? name = some schema) :
    s.schema? name = some schema ∨ schema = data.schema := by
  obtain ⟨registered, hregister, hinsert⟩ := Outcome.bind_eq_ok_iff.mp h
  have hregistered : registered.Reachable := .register hs hdata.1 hregister
  obtain ⟨t, ht, htable⟩ := table?_register hregister
  obtain ⟨_, htschema, _⟩ := Table.sound_ofSchema hdata.1 ht
  obtain ⟨u, u', hu, hall, hlookUp⟩ := table?_insert hinsert
  have hkept : u'.schema = u.schema := ((hregistered.sound _ u hu).1.insertAll hall).2.1
  have hbefore : registered.schema? name = some schema := by
    rw [Store.schema?, hlookUp] at hschema
    split at hschema
    · rename_i hkey
      have hsame : registered.table? name = some u := by
        rw [table?, ← hkey]
        exact hu
      rw [Store.schema?, hsame, Option.map_some, ← hkept]
      exact hschema
    · exact hschema
  rw [Store.schema?, htable] at hbefore
  split at hbefore
  · rw [Option.map_some, htschema, Option.some.injEq] at hbefore
    exact .inr hbefore.symm
  · exact .inl hbefore

/-- Adding entities gives a store that can come about, with no entities but the declared ones. -/
theorem Reachable.foldlM_addData (hs : s.Reachable) (hentities : ∀ data ∈ entities, data.WellFormed)
    (h : entities.foldlM Store.addData s = .ok s') :
    s'.Reachable ∧ ∀ name schema, s'.schema? name = some schema →
      s.schema? name = some schema ∨ schema ∈ entities.map EntityData.schema := by
  refine Outcome.foldlM_invariant (P := fun s' : Store => s'.Reachable ∧ ∀ name schema,
    s'.schema? name = some schema → s.schema? name = some schema ∨ schema ∈ entities.map EntityData.schema)
    ?_ ⟨hs, fun _ _ => .inl⟩ h
  rintro data hdata before after ⟨hbefore, hdeclared⟩ hadded
  refine ⟨hbefore.addData (hentities data hdata) hadded, fun name schema hschema => ?_⟩
  rcases hbefore.schema_of_addData (hentities data hdata) hadded hschema with hold | rfl
  · exact hdeclared name schema hold
  · exact .inr (List.mem_map_of_mem hdata)

/-- The store of entities with their records; it is empty if they are refused. -/
def ofEntities (entities : List EntityData) : Store := (entities.foldlM addData {}).toOption.getD {}

/-- **A store that is filled with well-formed data can come about.** -/
theorem reachable_ofEntities (hentities : ∀ data ∈ entities, data.WellFormed) :
    (ofEntities entities).Reachable := by
  rw [ofEntities]
  cases hfilled : entities.foldlM addData {} with
  | ok s => exact (Reachable.empty.foldlM_addData hentities hfilled).1
  | error err => exact .empty

/-- **A store that is filled has no entities but the declared ones.** -/
theorem schema_ofEntities (hentities : ∀ data ∈ entities, data.WellFormed) {name : String} {schema : EntitySchema}
    (hschema : (ofEntities entities).schema? name = some schema) : schema ∈ entities.map EntityData.schema := by
  have hnone : ({} : Store).schema? name = none := rfl
  rw [ofEntities] at hschema
  cases hfilled : entities.foldlM addData {} with
  | ok s =>
    rw [hfilled] at hschema
    refine ((Reachable.empty.foldlM_addData hentities hfilled).2 name schema hschema).resolve_left ?_
    rw [hnone]
    exact nofun
  | error err =>
    rw [hfilled, Except.toOption, Option.getD_none, hnone] at hschema
    exact absurd hschema nofun

/-- The declaration of an entity can be told by its name. -/
theorem schema?_ofEntities (hentities : ∀ data ∈ entities, data.WellFormed) {name : String} {schema : EntitySchema}
    (hone : ∀ data ∈ entities, data.schema.name = schema.name → data.schema = schema)
    (hname : ((ofEntities entities).schema? name).map EntitySchema.name = some schema.name) :
    (ofEntities entities).schema? name = some schema := by
  obtain ⟨found, hfound, hsame⟩ := Option.map_eq_some_iff.mp hname
  obtain ⟨data, hdata, rfl⟩ := List.mem_map.mp (schema_ofEntities hentities hfound)
  rw [hfound, hone data hdata hsame]

end Store

end GuardedQuery
