import GuardedQuery.Proofs.AdaptiveSort.Images
import GuardedQuery.Proofs.AdaptiveSort.Lists
import Mathlib.Data.List.Forall2

/-!
# Stable sorts

It is enough that a comparison does not contradict itself on the elements of a list: their sort does not give up, they
are in order afterwards, and elements of which none comes before another stay in the order that they had. To see this,
each element is marked with its class and with the place where it stands, which the sort does not look at. Related lists
are sorted alike, and either sort gives up if the other one does.

## Main definitions

* `AdaptiveSort.ConsistentOn`: comparisons that do not contradict themselves on a class of elements.

## Main statements

* `AdaptiveSort.ConsistentOn.exists_sort`: the sort does not give up.
* `AdaptiveSort.ConsistentOn.not_less_of_sort`: the elements are in order.
* `AdaptiveSort.ConsistentOn.filter_sort`: the sort is stable.
* `AdaptiveSort.sort_rel`: related lists are sorted alike.
-/

namespace GuardedQuery.AdaptiveSort

variable {α β : Type} {less : α → α → Bool} {l out : List α}

theorem perm_sort (h : sort less l = some out) : out.Perm l := (sorts_sort h).perm

/-- A comparison that does not contradict itself on the elements of a class. -/
structure ConsistentOn (less : α → α → Bool) (S : α → Prop) : Prop where
  /-- No two elements come before each other. -/
  asymm : ∀ a b, S a → S b → less a b = true → less b a = false
  /-- Any third element comes after the former or before the latter of two. -/
  split : ∀ a b c, S a → S b → S c → less a c = true → less a b = true ∨ less b c = true

namespace ConsistentOn

variable {S : α → Prop}

/-- Elements of the class that are marked with places. -/
theorem consistent (h : ConsistentOn less S) :
    Consistent fun a b : {a // S a} × Nat => less a.1.val b.1.val where
  asymm hab := h.asymm _ _ (Subtype.prop _) (Subtype.prop _) hab
  split b hac := h.split _ _ _ (Subtype.prop _) b.1.property (Subtype.prop _) hac

/-- The elements of a list, marked with the places where they stand. -/
theorem exists_marked (hl : ∀ a ∈ l, S a) :
    ∃ marked : List ({a // S a} × Nat), (marked.map fun e => e.1.val) = l ∧ marked.Pairwise fun a b => a.2 < b.2 := by
  refine ⟨(l.attachWith S hl).zipIdx, ?_, ?_⟩
  · have hmap := List.attachWith_map_subtype_val hl
    rw [← List.zipIdx_map_fst 0 (l.attachWith S hl), List.map_map] at hmap
    exact hmap
  · rw [← List.pairwise_map (f := Prod.snd), List.zipIdx_map_snd]
    exact List.pairwise_lt_range' 1

/-- **The sort does not give up** if the comparison does not contradict itself on the elements. -/
theorem exists_sort (h : ConsistentOn less S) (hl : ∀ a ∈ l, S a) : ∃ out, sort less l = some out := by
  obtain ⟨marked, rfl, -⟩ := exists_marked hl
  obtain ⟨out, hout⟩ := AdaptiveSort.exists_sort h.consistent marked
  exact ⟨_, by rw [sort_map, hout, Option.map_some]⟩

/-- **Sorted elements are in order** if the comparison does not contradict itself on them. -/
theorem not_less_of_sort (h : ConsistentOn less S) (hl : ∀ a ∈ l, S a) (hout : sort less l = some out) :
    out.Pairwise fun a b => less b a = false := by
  obtain ⟨marked, rfl, -⟩ := exists_marked hl
  rw [sort_map] at hout
  obtain ⟨sorted, hsorted, rfl⟩ := Option.map_eq_some_iff.mp hout
  exact List.pairwise_map.mpr ((sorts_sort hsorted).pairwise_not_less h.consistent)

/-- **The sort is stable**: elements of which none comes before another keep their order. -/
theorem filter_sort (h : ConsistentOn less S) (hl : ∀ a ∈ l, S a) (hout : sort less l = some out) {p : α → Bool}
    (hp : ∀ a ∈ l, ∀ b ∈ l, p a = true → p b = true → less a b = false) : out.filter p = l.filter p := by
  obtain ⟨marked, rfl, hplaces⟩ := exists_marked hl
  rw [sort_map] at hout
  obtain ⟨sorted, hsorted, rfl⟩ := Option.map_eq_some_iff.mp hout
  have hsorts := sorts_sort hsorted
  have hgoes := (hsorts.pairwise h.consistent hplaces).filter (p ∘ fun e => e.1.val)
  rw [List.filter_map, List.filter_map]
  -- What stays in order goes by the places, and these are different.
  refine congrArg _ (List.Perm.eq_of_pairwise (fun a b _ _ hab hba => absurd hab (Nat.lt_asymm hba)) ?_
    (hplaces.filter _) (hsorts.perm.filter _))
  refine hgoes.imp_of_mem fun ha hb hab => ?_
  obtain ⟨ha, hpa⟩ := List.mem_filter.mp ha
  obtain ⟨hb, hpb⟩ := List.mem_filter.mp hb
  have hnot := hp _ (List.mem_map_of_mem (hsorts.perm.mem_iff.mp ha)) _
    (List.mem_map_of_mem (hsorts.perm.mem_iff.mp hb)) hpa hpb
  rcases hab with hless | ⟨-, hbefore⟩
  · exact absurd (hnot.symm.trans hless) (by decide)
  · exact hbefore

end ConsistentOn

/-! ## Related lists -/

/-- Related lists are the sides of a list of related pairs. -/
theorem exists_pairs {R : α → β → Prop} {l : List α} {l' : List β} (h : List.Forall₂ R l l') :
    ∃ pairs : List {p : α × β // R p.1 p.2}, (pairs.map fun p => p.val.1) = l ∧ (pairs.map fun p => p.val.2) = l' := by
  induction h with
  | nil => exact ⟨[], rfl, rfl⟩
  | @cons a b l l' hab _ ih =>
    obtain ⟨pairs, rfl, rfl⟩ := ih
    exact ⟨⟨(a, b), hab⟩ :: pairs, rfl, rfl⟩

/-- **Related lists are sorted alike** if related elements are compared alike. -/
theorem sort_rel {R : α → β → Prop} {less' : β → β → Bool}
    (hR : ∀ a a' b b', R a a' → R b b' → less a b = less' a' b') {l : List α} {l' : List β} (h : List.Forall₂ R l l') :
    Option.Rel (List.Forall₂ R) (sort less l) (sort less' l') := by
  obtain ⟨pairs, rfl, rfl⟩ := exists_pairs h
  have hless : (fun p q : {p : α × β // R p.1 p.2} => less p.val.1 q.val.1) =
      fun p q => less' p.val.2 q.val.2 :=
    funext fun p => funext fun q => hR _ _ _ _ p.property q.property
  rw [sort_map, sort_map, hless]
  cases sort (fun p q : {p : α × β // R p.1 p.2} => less' p.val.2 q.val.2) pairs with
  | none => exact .none
  | some sorted =>
    refine .some ?_
    rw [List.forall₂_map_left_iff, List.forall₂_map_right_iff, List.forall₂_same]
    exact fun p _ => p.property

end GuardedQuery.AdaptiveSort
