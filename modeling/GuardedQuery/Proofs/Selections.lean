import GuardedQuery.Proofs.InsertionOrder
import GuardedQuery.Proofs.PageWalk
import GuardedQuery.Proofs.Registries

/-!
# Selections

A query that selects fields shows less of every row, and nothing else changes: rows are told apart, sorted, counted and
cut into pages as if nothing were selected, and the cursor holds the values of the keys although the items may not show
them. So a cursor of one query resumes the other one at the same place.

## Main definitions

* `Binding.Shows`: the members of a row that a selection shows.
* `Query.unselected`: a query without its selection.
* `Response.Narrows`: a response that shows less of the rows of another one.

## Main statements

* `Binding.keeps_eq_shows`: what is kept of a row is what the selection shows.
* `Query.same_present_unselected`: both queries present the same rows, one of them narrowed.
* `Engine.select_narrows`: a selection only narrows items, on the first page and on every page behind a cursor.
-/

namespace GuardedQuery

open Outcome (Same)

/-! ## What a selection shows -/

namespace Binding

/-- A selection shows a member if it is bound to a selected field, or to one that a join attaches. -/
def Shows (b : Binding) (select : List String) (target : String) : Prop :=
  ∃ m ∈ b.members, m.target = target ∧ (m.source ∈ select ∨ m.joined = true)

instance (b : Binding) (select : List String) (target : String) : Decidable (b.Shows select target) :=
  inferInstanceAs (Decidable (∃ m ∈ b.members, m.target = target ∧ (m.source ∈ select ∨ m.joined = true)))

/-- **What is kept of a row is what the selection shows**, since no target is bound twice. -/
theorem keeps_eq_shows {b : Binding} (htargets : (b.members.map BoundMember.target).Nodup) (select : List String)
    (target : String) : b.keeps select target = decide (b.Shows select target) := by
  rw [keeps]
  split
  · rename_i m hfound
    have hm := List.mem_of_find?_eq_some hfound
    have htarget : m.target = target := by simpa using List.find?_some hfound
    rw [Bool.eq_iff_iff, decide_eq_true_iff, Bool.or_eq_true, List.contains_iff_mem]
    constructor
    · exact fun hkept => ⟨m, hm, htarget, hkept.symm⟩
    · rintro ⟨other, hother, hsame, hshown⟩
      obtain rfl := List.inj_on_of_nodup_map htargets hother hm (hsame.trans htarget.symm)
      exact hshown.symm
  · rename_i hnone
    symm
    rw [decide_eq_false_iff_not]
    rintro ⟨m, hm, htarget, _⟩
    simpa [htarget] using List.find?_eq_none.mp hnone m hm

end Binding

/-- A response that has the page of another one, and shows those members of its items that a selection shows. -/
structure Response.Narrows (b : Binding) (select : List String) (r r₀ : Response Value) : Prop where
  /-- Every item is the part of its counterpart that the selection shows. -/
  items : List.Forall₂ (fun item item₀ => ∃ row : Record, item₀ = .object row ∧
    item = .object (row.filter fun m => b.Shows select m.1)) r.items r₀.items
  /-- The pages have one size. -/
  size : r.size = r₀.size
  /-- They end at one place. -/
  nextCursor : r.nextCursor = r₀.nextCursor
  /-- As many records pass the filters. -/
  totalCount : r.totalCount = r₀.totalCount
  /-- As many records were looked at. -/
  rowsExamined : r.rowsExamined = r₀.rowsExamined

/-! ## Queries without their selections -/

namespace Query

/-- The query that selects nothing in particular, and so shows everything. -/
def unselected (q : Query) : Query := { q with select := [] }

/-- One response narrows another one by the selection of a query, under the binding that is registered for it. -/
def Narrows {σ : Type} [Storage σ] (q : Query) (store : σ) (registry : Registry) (r r₀ : Response Value) : Prop :=
  ∃ schema b, Storage.schema? store q.entity = some schema ∧
    registry.get? Target.value.label schema.name = some b ∧ r.Narrows b q.select r₀

section Runs

variable {σ : Type} [Storage σ] {q : Query} (policy : Policy) (store : σ) {registry : Registry}

/-- A selection is not looked at until the items get their form. -/
theorem same_gather_unselected (hungrouped : q.isGrouped = false) :
    Step.Same (fun g g₀ => g₀ = g ∧ Storage.schema? store q.entity = some g.schema ∧
      ∃ b, g.binding = some b ∧ registry.get? Target.value.label g.schema.name = some b)
      (q.gather policy store registry Target.value.label)
      (q.unselected.gather policy store registry Target.value.label) := by
  rw [gather, gather]
  refine Step.Same.require_bind _ _ fun schema hschema => ?_
  refine Step.Same.ofExcept_bind _ fun binding hbinding => ?_
  refine Step.Same.bind_left _ fun predicate => Step.Same.bind_left _ fun found => ?_
  refine Step.Same.bind_left _ fun joined => Step.Same.bind_left _ fun rows => ?_
  exact Step.Same.bind_left _ fun _ =>
    Step.same_pure ⟨rfl, hschema, exists_of_bindingFor hungrouped hbinding⟩

/-- The item of a row is the part that the selection shows of the item without a selection. -/
theorem rowItem_unselected {b : Binding} (htargets : (b.members.map BoundMember.target).Nodup)
    (hselect : q.select ≠ []) (row : ShapedRow) :
    q.unselected.rowItem (some b) row = .object row.shaped ∧
      q.rowItem (some b) row = .object (row.shaped.filter fun m => b.Shows q.select m.1) := by
  refine ⟨rfl, ?_⟩
  have hsome : ¬q.select.isEmpty = true := by simpa using hselect
  simp only [rowItem, Binding.narrow, if_neg hsome, Binding.keeps_eq_shows htargets]

/-- **Both queries present the same rows**, one of them narrowed. -/
theorem same_present_unselected {g : Gathered} {b : Binding} (hbinding : g.binding = some b)
    (htargets : (b.members.map BoundMember.target).Nodup) (hselect : q.select ≠ []) :
    Step.Same (Response.Narrows b q.select) (q.present policy store Target.value g)
      (q.unselected.present policy store Target.value g) := by
  rw [present, present]
  refine Step.Same.bind_left _ fun shaped => Step.Same.bind_left _ fun finished => ?_
  refine Step.Same.bind_left _ fun page => Step.Same.bind_left _ fun total => ?_
  rw [mapM_item, mapM_item]
  refine Step.same_pure ⟨?_, rfl, rfl, rfl, rfl⟩
  rw [List.forall₂_map_left_iff, List.forall₂_map_right_iff, List.forall₂_same]
  intro row _
  obtain ⟨hall, hshown⟩ := rowItem_unselected (q := q) htargets hselect row
  rw [hbinding]
  exact ⟨row.shaped, hall, hshown⟩

/-- Runs of both queries fail for one reason, or come to one page. -/
theorem same_answer_unselected (hregistry : registry.Reachable) (hungrouped : q.isGrouped = false)
    (hselect : q.select ≠ []) :
    Step.Same (q.Narrows store registry) (q.answer policy store registry Target.value)
      (q.unselected.answer policy store registry Target.value) := by
  rw [answer_eq_present, answer_eq_present]
  refine (same_gather_unselected policy store hungrouped).bind ?_
  rintro _ g ⟨rfl, hschema, b, hbinding, hget⟩
  obtain ⟨_, _, hfits⟩ := hregistry.fits hget
  exact Step.Same.mono (same_present_unselected policy store hbinding hfits.targets hselect) fun r r₀ hnarrows =>
    ⟨g.schema, b, hschema, hget, hnarrows⟩

end Runs

end Query

/-! ## Queries that are accepted -/

namespace Policy

variable {p : Policy} {q : Query}

/-- Whoever may select some fields may select none in particular. -/
theorem accepts_unselected (h : p.accepts q = true) : p.accepts q.unselected = true := by
  obtain ⟨hnamed, entity, hentity, hadmissible⟩ := admissibleOn_of_accepts h
  obtain ⟨hpage, hparts⟩ := List.append_eq_nil_iff.mp ((entity.violations_eq_nil_iff p q).mpr hadmissible)
  have hunselected : p.pageViolations q.unselected ++ entity.violations p q.unselected = [] := by
    simp only [EntityPolicy.violations, List.append_eq_nil_iff] at hparts ⊢
    obtain ⟨⟨⟨⟨⟨hfilters, hsort⟩, _⟩, hoperations⟩, hgrouping⟩, hjoins⟩ := hparts
    exact ⟨hpage, ⟨⟨⟨⟨hfilters, hsort⟩, rfl⟩, hoperations⟩, hgrouping⟩, hjoins⟩
  have hnamed : Text.isBlankText q.unselected.entity = false := hnamed
  have hentity : p.entity? q.unselected.entity = some entity := hentity
  rw [accepts, violations]
  simp only [hnamed, hentity, hunselected, Bool.false_eq_true, if_false, List.isEmpty_nil]

/-- The validator does not look at cursors. -/
theorem accepts_withCursor (h : p.accepts q = true) (cursor : Option String) :
    p.accepts (q.withCursor cursor) = true := by
  obtain ⟨_, _, _, hadmissible⟩ := admissibleOn_of_accepts h
  have hsize : p.AdmitsSize (q.page.getD {}).size := by
    intro n hn
    refine hadmissible.page n ?_
    cases hpage : q.page <;> simp_all
  exact accepts_page h hsize cursor

end Policy

/-! ## Selections only narrow -/

/-- **A selection only narrows.** An engine hands on one error for a query with a selection and for the query without
it, or two pages that differ in their items only: each item is the part of its counterpart that the selection shows.
Cursors may be exchanged: behind any cursor, both queries are accepted and go on in this way. -/
theorem Engine.select_narrows {σ : Type} [Storage σ] {e : Engine σ} (hregistry : e.registry.Reachable) {q : Query}
    (haccepts : e.policy.accepts q = true) (hungrouped : q.isGrouped = false) (hselect : q.select ≠ [])
    (cancelled : Bool) (c c' : Circumstances) :
    e.policy.accepts q.unselected = true ∧
      Same (q.Narrows e.store e.registry) (e.execute Target.value q cancelled c).1
        (e.execute Target.value q.unselected cancelled c').1 ∧
      ∀ cursor, e.policy.accepts (q.withCursor cursor) = true ∧
        e.policy.accepts (q.unselected.withCursor cursor) = true ∧
        Same (q.Narrows e.store e.registry) (e.execute Target.value (q.withCursor cursor) cancelled c).1
          (e.execute Target.value (q.unselected.withCursor cursor) cancelled c').1 := by
  have hunselected := Policy.accepts_unselected haccepts
  refine ⟨hunselected, ?_, fun cursor => ?_⟩
  · have hruns := q.same_answer_unselected e.policy e.store hregistry hungrouped hselect
    exact same_execute haccepts hunselected hruns cancelled c c'
  · have hcursor := Policy.accepts_withCursor haccepts cursor
    have hcursor' := Policy.accepts_withCursor hunselected cursor
    have hruns := (q.withCursor cursor).same_answer_unselected e.policy e.store hregistry hungrouped hselect
    exact ⟨hcursor, hcursor', same_execute hcursor hcursor' hruns cancelled c c'⟩

/-! ## The colours of coats -/

/-- The query for coats that selects their colours only. -/
def colourQuery : Query := { coatQuery with select := ["Colour"] }

/-- Of the coat on the first page only the colour is shown, but the cursor holds all keys of the coat, and either query
goes on behind it. -/
theorem Engine.select_narrows_coats :
    ((coatEngine coats).execute Target.value colourQuery false {}).1 =
        .ok (coatPage (.object [("Colour", .string "red")])) ∧
      ((coatEngine coats).execute Target.value colourQuery.unselected false {}).1 = .ok (coatPage coatItem) ∧
      colourQuery.Narrows (coatEngine coats).store (coatEngine coats).registry
        (coatPage (.object [("Colour", .string "red")])) (coatPage coatItem) ∧
      Same (colourQuery.Narrows (coatEngine coats).store (coatEngine coats).registry)
        ((coatEngine coats).execute Target.value (colourQuery.withCursor (coatPage coatItem).nextCursor) false {}).1
        ((coatEngine coats).execute Target.value (colourQuery.unselected.withCursor (coatPage coatItem).nextCursor)
          false {}).1 := by
  have hregistered : Registry.register {} "<value>" coatSchema (.ofFields ["Colour", "Id", "Sizes"]) =
      .ok (coatEngine coats).registry := by decide +kernel
  have haccepts : (coatEngine coats).policy.accepts colourQuery = true := by decide +kernel
  obtain ⟨_, hfirst, hnext⟩ := select_narrows (.register .empty hregistered) haccepts rfl (by decide) false {} {}
  have hshown : ((coatEngine coats).execute Target.value colourQuery false {}).1 =
      .ok (coatPage (.object [("Colour", .string "red")])) :=
    execute_eq_ok_iff.mpr ⟨haccepts, by decide +kernel⟩
  have hall : ((coatEngine coats).execute Target.value colourQuery.unselected false {}).1 = .ok (coatPage coatItem) :=
    execute_eq_ok_iff.mpr ⟨by decide +kernel, by decide +kernel⟩
  refine ⟨hshown, hall, ?_, (hnext _).2.2⟩
  rw [hshown, hall] at hfirst
  cases hfirst with
  | ok hnarrows => exact hnarrows

end GuardedQuery
