import GuardedQuery.Proofs.Pages

/-!
# Stable sorting

Sorting is stable: rows that tie keep their order. So sorted rows are determined by the keys together with the order
in which rows that tie came, and rows that come from the other end, sorted by opposite keys, end up in the opposite
order.

## Main statements

* `SortKey.eq_of_filter_tied`: lists in order are determined by the order of what ties.
* `SortKey.sort_reverse`: opposite rows sorted by opposite keys are in the opposite order.
-/

namespace GuardedQuery.SortKey

/-! ## Rows that tie -/

section Tied

variable {α : Type} (compare : α → α → Ordering) [Std.OrientedCmp compare] {S : α → Prop} {l l' : List α}

theorem mem_of_filter_tied {a : α}
    (htied : l.filter (fun b => compare a b == .eq) = l'.filter fun b => compare a b == .eq) (ha : a ∈ l) : a ∈ l' := by
  have hself : compare a a = .eq := Std.ReflCmp.compare_self
  have hmem : a ∈ l'.filter fun b => compare a b == .eq := by
    rw [← htied]
    simpa [hself] using ha
  exact List.mem_of_mem_filter hmem

/-- Lists in order are equal if, for each element, they have the elements that tie with it in the same order. -/
theorem eq_of_filter_tied (hS : ∀ a ∈ l, S a) (hS' : ∀ a ∈ l', S a) (hl : l.Pairwise fun a b => compare a b ≠ .gt)
    (hl' : l'.Pairwise fun a b => compare a b ≠ .gt)
    (htied : ∀ a, S a → l.filter (fun b => compare a b == .eq) = l'.filter fun b => compare a b == .eq) : l = l' := by
  have hself : ∀ a, compare a a = .eq := fun _ => Std.ReflCmp.compare_self
  induction l generalizing l' with
  | nil =>
    refine (List.eq_nil_iff_forall_not_mem.mpr ?_).symm
    intro a ha
    simpa using mem_of_filter_tied compare (htied a (hS' a ha)).symm ha
  | cons a rest ih =>
    have hSa : S a := hS a (List.mem_cons_self ..)
    have ha : a ∈ l' := mem_of_filter_tied compare (htied a hSa) (List.mem_cons_self ..)
    cases l' with
    | nil => simp at ha
    | cons b rest' =>
      have hSb : S b := hS' b (List.mem_cons_self ..)
      have hb : b ∈ a :: rest := mem_of_filter_tied compare (htied b hSb).symm (List.mem_cons_self ..)
      obtain ⟨hfirst, hrest⟩ := List.pairwise_cons.mp hl
      obtain ⟨hfirst', hrest'⟩ := List.pairwise_cons.mp hl'
      -- The first elements tie, since neither comes strictly after the other.
      have hab : compare a b = .eq := by
        rcases List.mem_cons.mp hb with rfl | hb
        · exact hself b
        rcases List.mem_cons.mp ha with rfl | ha
        · exact hself a
        have hforth := hfirst b hb
        have hback := hfirst' a ha
        have hswap : compare b a = (compare a b).swap := Std.OrientedCmp.eq_swap
        rw [hswap] at hback
        cases hcompare : compare a b <;> simp_all
      obtain rfl : a = b := by
        have hheads := htied a hSa
        rw [List.filter_cons, List.filter_cons, hself a, hab] at hheads
        exact (List.cons.inj hheads).1
      -- So what ties with a row is the same in the tails.
      have htails : ∀ x, S x →
          rest.filter (fun y => compare x y == .eq) = rest'.filter fun y => compare x y == .eq := by
        intro x hSx
        have hx := htied x hSx
        by_cases hxa : compare x a = .eq <;> simpa [List.filter_cons, hxa] using hx
      rw [ih (fun c hc => hS c (List.mem_cons_of_mem a hc)) (fun c hc => hS' c (List.mem_cons_of_mem a hc)) hrest hrest'
        htails]

end Tied

/-! ## Opposite keys -/

instance (keys : List SortKey) : Std.OrientedCmp (compareRecords keys) where
  eq_swap := compareRecords_swap keys _ _

variable {keys : List SortKey} {rows : List Record}

theorem compare_reversed (k : SortKey) (a b : Value) : k.reversed.compare a b = (k.compare a b).swap := by
  unfold compare orient reversed
  cases k.direction <;> simp [Direction.flip]

theorem reversed_reversed (k : SortKey) : k.reversed.reversed = k := by
  obtain ⟨field, direction, temporal⟩ := k
  cases direction <;> rfl

/-- Opposite keys compare rows from the other side. -/
theorem compareRecords_map_reversed (keys : List SortKey) (a b : Record) :
    compareRecords (keys.map reversed) a b = compareRecords keys b a := by
  rw [compareRecords_swap keys a b]
  induction keys with
  | nil => rfl
  | cons k rest ih =>
    rw [List.map_cons, compareRecords, compareRecords, ih, compare_reversed, Ordering.swap_then]
    rfl

theorem Orders.map_reversed {S : Record → Prop} (h : Orders keys S) : Orders (keys.map reversed) S where
  swap a b _ _ := compareRecords_swap (keys.map reversed) a b
  trans := by
    intro a b c ha hb hc hab hbc
    rw [compareRecords_map_reversed] at hab hbc ⊢
    exact h.trans c b a hc hb ha hbc hab

/-- Rows that tie with a row tie with one another. -/
theorem Orders.ne_lt_of_tied {S : Record → Prop} (h : Orders keys S) {a b c : Record} (ha : S a) (hb : S b) (hc : S c)
    (hab : compareRecords keys a b = .eq) (hac : compareRecords keys a c = .eq) : compareRecords keys b c ≠ .lt := by
  intro hbc
  have hba : compareRecords keys c a ≠ .gt := by
    rw [h.swap a c ha hc, hac]
    decide
  have hlt := h.lt_of_lt_of_not_gt hb hc ha hbc hba
  rw [h.swap a b ha hb, hab] at hlt
  cases hlt

/-- The rows that tie with a row are sorted into the order in which they were. -/
theorem filter_sort {a : Record} (h : Orders keys (· ∈ rows)) (ha : a ∈ rows) :
    (sort keys rows).filter (fun b => compareRecords keys a b == .eq) =
      rows.filter fun b => compareRecords keys a b == .eq := by
  refine filter_sortBy h (fun _ hr => hr) fun b hb c hc hab hac => ?_
  exact h.ne_lt_of_tied ha hb hc (beq_iff_eq.mp hab) (beq_iff_eq.mp hac)

/-- **Sorting opposite rows by opposite keys gives the opposite order**, also of rows that tie. -/
theorem sort_reverse (h : Orders keys (· ∈ rows)) :
    sort (keys.map reversed) rows.reverse = (sort keys rows).reverse := by
  have hreversed : Orders (keys.map reversed) (· ∈ rows.reverse) := by
    simpa only [List.mem_reverse] using h.map_reversed
  have hmem : ∀ r ∈ sort (keys.map reversed) rows.reverse, r ∈ rows := fun r hr => by simpa using mem_sortBy.mp hr
  have hmem' : ∀ r ∈ (sort keys rows).reverse, r ∈ rows := fun r hr => mem_sortBy.mp (List.mem_reverse.mp hr)
  refine eq_of_filter_tied (compareRecords (keys.map reversed)) hmem hmem' (pairwise_sort hreversed) ?_ ?_
  · rw [List.pairwise_reverse]
    simpa only [compareRecords_map_reversed] using pairwise_sort h
  · intro a ha
    have htied : ∀ b, (compareRecords (keys.map reversed) a b == .eq) = (compareRecords keys a b == .eq) := by
      intro b
      rw [compareRecords_map_reversed, compareRecords_swap keys a b]
      cases compareRecords keys a b <;> rfl
    rw [filter_sort hreversed (List.mem_reverse.mpr ha)]
    simp only [htied, List.filter_reverse, filter_sort h ha]

end GuardedQuery.SortKey
