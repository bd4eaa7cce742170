import GuardedQuery.Policy.Basic
import GuardedQuery.Proofs.Dict
import GuardedQuery.Proofs.Json.Documents

/-!
# Policies that come about

Policies are read from documents or put together by adding entity policies. Either way every entity policy is
kept under its own key, so what is found under a name is the policy of the entity with this name.

## Main definitions

* `Policy.WellKeyed`: policies that keep every entity policy under its key.

## Main statements

* `Decoder.ofFields_invariant`: what reading the fields of a structure keeps.
* `Policy.exists_document`: the document of a policy that is read.
* `Policy.WellKeyed.withEntity`, `Policy.wellKeyed_ofText`: policies that come about are well keyed.
-/

namespace GuardedQuery

namespace Decoder

variable {α : Type} {P : α → Prop} {fields : List (Field α)} {a b : α}

/-- What holds of the values of absent fields and is kept by every field holds of a structure that is read. -/
theorem ofFields_invariant (hread : ∀ f ∈ fields, ∀ n a b, P a → f.read n a = .ok b → P b) (ha : P a)
    {n : Node} (h : ofFields fields a n = .ok b) : P b :=
  ofFields_keeps (fun f hf n _ => hread f hf n) ha h

end Decoder

/-- A field keeps what no value that it can have breaks. -/
theorem Field.optional_invariant {α β : Type} {P : α → Prop} {name : String} {item : Decoder β} {set : β → α → α}
    (hset : ∀ n v a, item n = .ok v → P a → P (set v a)) (n : Node) (a b : α) (ha : P a)
    (h : (optional name item set).read n a = .ok b) : P b := by
  obtain ⟨v, hv, rfl⟩ := Outcome.map_eq_ok_iff.mp h
  exact hset n v a hv ha

namespace Policy

/-- Every entity policy is kept under its key. -/
def WellKeyed (p : Policy) : Prop := ∀ entry ∈ p.entities, entry.1 = entry.2.key

/-- Policies without entities are well keyed, whatever their limits. -/
theorem wellKeyed_of_entities_eq_nil {p : Policy} (h : p.entities = []) : p.WellKeyed := by
  rw [WellKeyed, h]
  exact nofun

theorem WellKeyed.withEntity {p : Policy} (h : p.WellKeyed) (e : EntityPolicy) : (p.withEntity e).WellKeyed := by
  intro entry hentry
  rcases Dict.mem_of_mem_insert hentry with rfl | hentry
  · rfl
  · exact h entry hentry

theorem WellKeyed.addEntity {p p' : Policy} (hp : p.WellKeyed) {e : EntityPolicy} (h : p.addEntity e = .ok p') :
    p'.WellKeyed := by
  rw [Policy.addEntity] at h
  split at h
  · exact nomatch h
  · split at h
    · exact nomatch h
    · exact Except.ok.inj h ▸ hp.withEntity e

/-- A projection does not touch the entities. -/
theorem WellKeyed.addProjection {p p' : Policy} (hp : p.WellKeyed) {name : String} {members : Dict String}
    (h : p.addProjection name members = .ok p') : p'.WellKeyed := by
  rw [Policy.addProjection] at h
  split at h
  · exact Except.ok.inj h ▸ hp
  · exact nomatch h

/-- The policy of a document has its limits, which make sense, then its entities, then its projections. -/
theorem ofDocument_eq_ok {d : Document} {p : Policy} (h : ofDocument d = .ok p) :
    d.limits.checkLimits = .ok () ∧ ∃ between, d.entities.foldlM addEntity d.limits = .ok between ∧
      d.projections.foldlM (fun p entry => addProjection p entry.1 entry.2) between = .ok p := by
  rw [ofDocument] at h
  cases hlimits : d.limits.checkLimits with
  | error cause => simp [hlimits, throw, throwThe, MonadExceptOf.throw, bind, Except.bind] at h
  | ok _ =>
    rw [hlimits] at h
    exact ⟨rfl, Outcome.bind_eq_ok_iff.mp h⟩

theorem wellKeyed_ofDocument {d : Document} (hd : d.limits.entities = []) {p : Policy} (h : ofDocument d = .ok p) :
    p.WellKeyed := by
  obtain ⟨_, between, hbetween, h⟩ := ofDocument_eq_ok h
  have hkeyed : between.WellKeyed :=
    Outcome.foldlM_invariant (fun _ _ _ _ hp => hp.addEntity) (wellKeyed_of_entities_eq_nil hd) hbetween
  exact Outcome.foldlM_invariant (fun _ _ _ _ hp => hp.addProjection) hkeyed h

/-- A policy that is read is that of a document, and the limits of a document come without entities and
projections. -/
theorem exists_document {text : String} {p : Policy} (h : ofText text = .ok p) :
    ∃ d, Decoder.run documentDecoder text = .ok d ∧ d.limits.entities = [] ∧ d.limits.projections = [] ∧
      ofDocument d = .ok p := by
  rw [ofText] at h
  split at h
  · exact nomatch h
  rename_i d hd
  obtain ⟨read, hread, hended⟩ := Outcome.bind_eq_ok_iff.mp hd
  have hlimits : read.limits.entities = [] ∧ read.limits.projections = [] := by
    refine Decoder.ofFields_invariant (P := fun d => d.limits.entities = [] ∧ d.limits.projections = []) ?_
      ⟨rfl, rfl⟩ hread
    simp only [List.forall_mem_cons]
    refine ⟨?_, ?_, ?_, ?_, ?_, ?_, ?_, nofun⟩ <;> exact Field.optional_invariant fun _ _ _ _ hd => hd
  split at hended
  · obtain rfl := Except.ok.inj hended
    exact ⟨_, hd, hlimits.1, hlimits.2, h⟩
  · exact nomatch hended

/-- **A policy that is read keeps every entity policy under its key.** -/
theorem wellKeyed_ofText {text : String} {p : Policy} (h : ofText text = .ok p) : p.WellKeyed := by
  obtain ⟨d, _, hentities, _, hd⟩ := exists_document h
  exact wellKeyed_ofDocument hentities hd

end Policy

end GuardedQuery
