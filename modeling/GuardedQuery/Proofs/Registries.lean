import GuardedQuery.Projection.Registry
import Mathlib.Data.List.Nodup

/-!
# What registries hold

Whatever bindings a registry has been offered, it only holds bindings that are fit for the entity they were registered
for: they have members, no target is bound twice, members that no join attaches read declared fields, and the identity
is bound. So every member of a row has one source.

## Main definitions

* `Binding.Fits`: bindings that are fit for an entity.
* `Registry.Reachable`: the registries that can come about.

## Main statements

* `Registry.defect?_eq_none_iff`: a binding has no defect if and only if it is fit.
* `Registry.Reachable.fits`: the bindings that a registry holds are fit.
-/

namespace GuardedQuery

namespace Binding

theorem firstRepeated?_eq_none_iff {seen names : List String} :
    firstRepeated? seen names = none ↔ names.Nodup ∧ ∀ name ∈ names, name ∉ seen := by
  induction names generalizing seen with
  | nil => simp [firstRepeated?]
  | cons name rest ih =>
    rw [firstRepeated?, List.nodup_cons, List.forall_mem_cons]
    by_cases hseen : name ∈ seen
    · simp [hseen]
    · rw [if_neg (by simpa using hseen), ih]
      constructor
      · rintro ⟨hnodup, hothers⟩
        refine ⟨⟨fun hmem => hothers name hmem List.mem_cons_self, hnodup⟩, hseen, fun other hother => ?_⟩
        exact fun hmem => hothers other hother (List.mem_cons_of_mem _ hmem)
      · rintro ⟨⟨hnew, hnodup⟩, _, hothers⟩
        refine ⟨hnodup, fun other hother hmem => ?_⟩
        rcases List.mem_cons.mp hmem with rfl | hmem
        · exact hnew hother
        · exact hothers other hother hmem

/-- A binding that is fit for an entity. -/
structure Fits (b : Binding) (schema : EntitySchema) : Prop where
  /-- It has members. -/
  nonempty : b.members ≠ []
  /-- No target is bound twice. -/
  targets : (b.members.map BoundMember.target).Nodup
  /-- Members that no join attaches read declared fields. -/
  declared : ∀ m ∈ b.members, m.joined = false → schema.hasField m.source = true
  /-- The identity is bound. -/
  identity : ∃ m ∈ b.members, m.source = schema.identity

theorem isNone_targetOf?_iff {b : Binding} {source : String} :
    (b.targetOf? source).isNone = true ↔ ∀ m ∈ b.members, m.source ≠ source := by
  simp [targetOf?]

end Binding

namespace Registry

/-- **A binding has no defect if and only if it is fit.** -/
theorem defect?_eq_none_iff {target : String} {schema : EntitySchema} {b : Binding} :
    defect? target schema b = none ↔ b.Fits schema := by
  have htargets : b.repeatedTarget? = none ↔ (b.members.map BoundMember.target).Nodup := by
    rw [Binding.repeatedTarget?, Binding.firstRepeated?_eq_none_iff]
    simp
  constructor
  · intro h
    rw [defect?] at h
    split at h
    · cases h
    · rename_i hmembers
      split at h
      · cases h
      · rename_i hrepeated
        split at h
        · cases h
        · rename_i hfound
          split at h
          · cases h
          · rename_i hidentity
            refine ⟨by simpa using hmembers, htargets.mp hrepeated, fun m hm hjoined => ?_, ?_⟩
            · simpa [hjoined] using List.find?_eq_none.mp hfound m hm
            · rw [Binding.isNone_targetOf?_iff] at hidentity
              simpa using hidentity
  · intro h
    have hfound : (b.members.find? fun m => !m.joined && !schema.hasField m.source) = none := by
      refine List.find?_eq_none.mpr fun m hm => ?_
      cases hjoined : m.joined with
      | true => simp
      | false => simp [h.declared m hm hjoined]
    have hidentity : ¬(b.targetOf? schema.identity).isNone = true := by
      rw [Binding.isNone_targetOf?_iff]
      obtain ⟨m, hm, hsource⟩ := h.identity
      exact fun hnone => hnone m hm hsource
    have hmembers : ¬b.members.isEmpty = true := by simpa using h.nonempty
    rw [defect?, if_neg hmembers, htargets.mpr h.targets]
    simp only [hfound, if_neg hidentity]

/-- The registries that come about by adding bindings. What is refused changes nothing. -/
inductive Reachable : Registry → Prop
  | empty : Reachable {}
  | register {r r' : Registry} {target : String} {schema : EntitySchema} {b : Binding} :
      Reachable r → r.register target schema b = .ok r' → Reachable r'

/-- A registration appends the binding, which is fit, under a key that is free. -/
theorem register_eq_ok {r r' : Registry} {target : String} {schema : EntitySchema} {b : Binding}
    (h : r.register target schema b = .ok r') :
    b.Fits schema ∧ r.find? schema.key target = none ∧
      r' = { entries := r.entries ++ [{ entity := schema.key, target, binding := b }] } := by
  rw [register] at h
  split at h
  · cases h
  · rename_i hdefect
    split at h
    · cases h
    · rename_i hfree
      exact ⟨defect?_eq_none_iff.mp hdefect, by simpa using hfree, (Except.ok.inj h).symm⟩

/-- A binding that is fit is registered if its key is free. -/
theorem register_of_fits {r : Registry} {target : String} {schema : EntitySchema} {b : Binding} (hfits : b.Fits schema)
    (hfree : r.find? schema.key target = none) :
    r.register target schema b = .ok { entries := r.entries ++ [{ entity := schema.key, target, binding := b }] } := by
  have hdefect : defect? target schema b = none := defect?_eq_none_iff.mpr hfits
  rw [register, hdefect, hfree]
  rfl

/-- Every entry of a registry is fit for an entity with its key. -/
theorem Reachable.fits_entry {r : Registry} (h : r.Reachable) :
    ∀ entry ∈ r.entries, ∃ schema : EntitySchema, schema.key = entry.entity ∧ entry.binding.Fits schema := by
  induction h with
  | empty => simp
  | @register r r' target schema b _ hregister ih =>
    obtain ⟨hfits, _, rfl⟩ := register_eq_ok hregister
    intro entry hentry
    rcases List.mem_append.mp hentry with hold | hnew
    · exact ih entry hold
    · obtain rfl := List.mem_singleton.mp hnew
      exact ⟨schema, rfl, hfits⟩

/-- **The bindings that a registry holds are fit** for an entity with the key that they are found under. -/
theorem Reachable.fits {r : Registry} (h : r.Reachable) {target entity : String} {b : Binding}
    (hfound : r.get? target entity = some b) :
    ∃ schema : EntitySchema, schema.key = entityKey entity ∧ b.Fits schema := by
  obtain ⟨entry, hentry, rfl⟩ := Option.map_eq_some_iff.mp hfound
  obtain ⟨schema, hkey, hfits⟩ := h.fits_entry entry (List.mem_of_find?_eq_some hentry)
  have hmatch := List.find?_some hentry
  simp only [Bool.and_eq_true, beq_iff_eq] at hmatch
  exact ⟨schema, hkey.trans hmatch.1, hfits⟩

end Registry

end GuardedQuery
