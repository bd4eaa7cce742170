import GuardedQuery.Proofs.AdaptiveSort.Stability
import GuardedQuery.Proofs.RowOrder
import Mathlib.Data.List.Nodup

/-!
# Sorting rows

Sorting keeps all rows. Whenever the keys order them, the sort does not give up, puts them in order, and leaves rows
that tie in the order that they had.

## Main statements

* `SortKey.perm_sortBy`: sorting keeps all rows.
* `SortKey.sortBy?_eq_some`: the sort does not give up.
* `SortKey.pairwise_sortBy`: sorted rows are in order.
* `SortKey.filter_sortBy`: rows of which none comes strictly before another keep their order.
* `SortKey.pairwise_lt_sort`: sorted rows are strictly increasing if the keys tell them apart.
-/

namespace GuardedQuery.SortKey

variable {α : Type}

/-- The comparison by keys that order the rows does not contradict itself on them. -/
theorem Orders.consistentOn {keys : List SortKey} {S : Record → Prop} (h : Orders keys S) (record : α → Record) :
    AdaptiveSort.ConsistentOn (fun a b => compareRecords keys (record a) (record b) == .lt) fun a => S (record a) where
  asymm a b ha hb hab := by
    rw [beq_iff_eq] at hab
    rw [h.swap _ _ ha hb, hab]
    rfl
  split a b c ha hb hc hac := by
    simp only [beq_iff_eq] at hac ⊢
    by_contra hneither
    obtain ⟨hab, hbc⟩ := not_or.mp hneither
    rw [← h.gt_iff_lt hb ha] at hab
    rw [← h.gt_iff_lt hc hb] at hbc
    exact h.trans _ _ _ hc hb ha hbc hab ((h.gt_iff_lt hc ha).mpr hac)

/-- **Sorting keeps all rows.** -/
theorem perm_sortBy (keys : List SortKey) (record : α → Record) (rows : List α) :
    (sortBy keys record rows).Perm rows := by
  rw [sortBy]
  cases hsort : sortBy? keys record rows with
  | none => exact List.Perm.refl rows
  | some sorted => exact AdaptiveSort.perm_sort hsort

theorem mem_sortBy {keys : List SortKey} {record : α → Record} {rows : List α} {a : α} :
    a ∈ sortBy keys record rows ↔ a ∈ rows := (perm_sortBy keys record rows).mem_iff

section

variable {keys : List SortKey} {S : Record → Prop} (h : Orders keys S) {record : α → Record} {rows : List α}
  (hrows : ∀ a ∈ rows, S (record a))

include h hrows

/-- **The sort does not give up** if the keys order the rows. -/
theorem sortBy?_eq_some : sortBy? keys record rows = some (sortBy keys record rows) := by
  obtain ⟨sorted, hsorted⟩ := (h.consistentOn record).exists_sort hrows
  have hsome : sortBy? keys record rows = some sorted := hsorted
  rw [sortBy, hsome, Option.getD_some]

/-- **Sorted rows are in order**, whenever the keys order them. -/
theorem pairwise_sortBy :
    (sortBy keys record rows).Pairwise fun a b => compareRecords keys (record a) (record b) ≠ .gt := by
  have hsorted := (h.consistentOn record).not_less_of_sort hrows (sortBy?_eq_some h hrows)
  refine hsorted.imp_of_mem fun ha hb hba => ?_
  rw [Ne, h.gt_iff_lt (hrows _ (mem_sortBy.mp ha)) (hrows _ (mem_sortBy.mp hb))]
  simpa using hba

/-- **Sorting is stable**: rows of which none comes strictly before another keep their order. -/
theorem filter_sortBy {p : α → Bool}
    (hp : ∀ a ∈ rows, ∀ b ∈ rows, p a = true → p b = true → compareRecords keys (record a) (record b) ≠ .lt) :
    (sortBy keys record rows).filter p = rows.filter p := by
  refine (h.consistentOn record).filter_sort hrows (sortBy?_eq_some h hrows) fun a ha b hb hpa hpb => ?_
  simpa using hp a ha b hb hpa hpb

end

theorem sort?_eq_some {keys : List SortKey} {rows : List Record} (h : Orders keys (· ∈ rows)) :
    sort? keys rows = some (sort keys rows) :=
  sortBy?_eq_some h fun _ hr => hr

theorem sort_of_sort? {keys : List SortKey} {rows sorted : List Record} (h : sort? keys rows = some sorted) :
    sort keys rows = sorted := by
  rw [sort, sortBy, ← sort?, h, Option.getD_some]

/-- Sorted records are in order. -/
theorem pairwise_sort {keys : List SortKey} {rows : List Record} (h : Orders keys (· ∈ rows)) :
    (sort keys rows).Pairwise fun a b => compareRecords keys a b ≠ .gt := by
  have hsorted : (sortBy keys id rows).Pairwise fun a b => compareRecords keys (id a) (id b) ≠ .gt :=
    pairwise_sortBy h fun _ hr => hr
  exact hsorted

/-- Elements that are in order and of which no two tie are strictly increasing. -/
theorem pairwise_lt {α : Type} {cmp : α → α → Ordering} {l : List α} (hle : l.Pairwise fun a b => cmp a b ≠ .gt)
    (hne : l.Pairwise fun a b => cmp a b ≠ .eq) : l.Pairwise fun a b => cmp a b = .lt := by
  refine (hle.and hne).imp ?_
  rintro a b ⟨hnot, hapart⟩
  cases hcompare : cmp a b with
  | lt => rfl
  | eq => exact absurd hcompare hapart
  | gt => exact absurd hcompare hnot

/-- **Sorted rows are strictly increasing** if the keys tell them apart. -/
theorem pairwise_lt_sort {keys : List SortKey} {S : Record → Prop} (h : Orders keys S) {rows : List Record}
    (hrows : ∀ r ∈ rows, S r) (hnodup : rows.Nodup)
    (happart : ∀ a ∈ rows, ∀ b ∈ rows, compareRecords keys a b = .eq → a = b) :
    (sort keys rows).Pairwise fun a b => compareRecords keys a b = .lt := by
  have hsorted : (sortBy keys id rows).Pairwise fun a b => compareRecords keys (id a) (id b) ≠ .gt :=
    pairwise_sortBy h hrows
  have hdistinct : (sort keys rows).Pairwise fun a b => a ≠ b := (perm_sortBy keys id rows).nodup_iff.mpr hnodup
  refine (hsorted.and hdistinct).imp_of_mem ?_
  intro a b ha hb hab
  cases hcompare : compareRecords keys a b with
  | lt => rfl
  | gt => exact absurd hcompare hab.1
  | eq => exact absurd (happart a (mem_sortBy.mp ha) b (mem_sortBy.mp hb) hcompare) hab.2

end GuardedQuery.SortKey
