import GuardedQuery.AdaptiveSort
import Mathlib.Data.List.Basic

/-!
# Sorted parts and their merges

A sort puts a list in order: all elements stay, of two elements that are in one order by the comparison the one that
comes before goes first, and two elements that tie go in the order that they had. The latter holds of every relation
that the elements stood in from the left to the right, so it composes: a merge of two sorted neighbours is their
concatenation in order. Insertion and both merges do this for any comparison that does not contradict itself, and the
two ends of a merge of halves then always meet.

## Main definitions

* `AdaptiveSort.Consistent`: comparisons that do not contradict themselves.
* `AdaptiveSort.Goes`: the order of a sorted list, relative to the order before.
* `AdaptiveSort.Sorts`: a list in order.
* `AdaptiveSort.IsFront`, `AdaptiveSort.Ends`: what a merge has done from one end, and from both.

## Main statements

* `AdaptiveSort.sorts_insertAll`: insertion sorts.
* `AdaptiveSort.Sorts.merge`, `AdaptiveSort.Sorts.mergeRuns`: merges sort.
* `AdaptiveSort.sorts_sortShort`: a short part is sorted.
* `AdaptiveSort.sortShort_ne_none`: the sort of a short part does not give up on a consistent comparison.
-/

namespace GuardedQuery.AdaptiveSort

variable {α : Type} {less : α → α → Bool}

/-! ## Comparisons -/

/-- A comparison that does not contradict itself: what comes before another element does not come after it, and any
third element comes after the former or before the latter. -/
structure Consistent (less : α → α → Bool) : Prop where
  /-- No two elements come before each other. -/
  asymm : ∀ {a b}, less a b = true → less b a = false
  /-- Any third element comes after the former or before the latter of two. -/
  split : ∀ {a c} b, less a c = true → less a b = true ∨ less b c = true

namespace Consistent

theorem irrefl (h : Consistent less) (a : α) : less a a = false := by
  cases haa : less a a with
  | false => rfl
  | true => exact haa ▸ h.asymm haa

/-- What does not come after another element does not come after what that one does not come after. -/
theorem trans (h : Consistent less) {a b c : α} (hab : less b a = false) (hbc : less c b = false) :
    less c a = false := by
  cases hca : less c a with
  | false => rfl
  | true => rcases h.split b hca with hcb | hba <;> simp_all

/-- The comparison from the other side. -/
theorem flip (h : Consistent less) : Consistent fun a b => less b a where
  asymm hab := h.asymm hab
  split b hca := (h.split b hca).symm

end Consistent

/-- One element goes before another: it comes before it, or they tie and stood in this order. -/
def Goes (less : α → α → Bool) (before : α → α → Prop) (a b : α) : Prop :=
  less a b = true ∨ less b a = false ∧ before a b

theorem Goes.not_less {before : α → α → Prop} {a b : α} (h : Consistent less) (hab : Goes less before a b) :
    less b a = false := by
  rcases hab with hab | ⟨hba, _⟩
  · exact h.asymm hab
  · exact hba

theorem pairwise_of_length_le_one {R : α → α → Prop} {l : List α} (h : l.length ≤ 1) : l.Pairwise R := by
  match l, h with
  | [], _ => exact List.Pairwise.nil
  | [a], _ => exact List.pairwise_singleton R a

/-- A list with all elements of another one, in the order of a comparison if this does not contradict itself. -/
structure Sorts (less : α → α → Bool) (l out : List α) : Prop where
  /-- All elements stay. -/
  perm : out.Perm l
  /-- They go in order. -/
  pairwise : Consistent less → ∀ {before : α → α → Prop}, l.Pairwise before → out.Pairwise (Goes less before)

namespace Sorts

variable {l out l₁ l₂ out₁ out₂ : List α}

/-- A list without two elements is in order. -/
theorem of_length_le_one (h : l.length ≤ 1) : Sorts less l l where
  perm := List.Perm.refl l
  pairwise _ _ _ := pairwise_of_length_le_one h

/-- No element of a sorted list comes before an earlier one. -/
theorem pairwise_not_less (h : Sorts less l out) (hless : Consistent less) :
    out.Pairwise fun a b => less b a = false := by
  have hgoes : out.Pairwise (Goes less fun _ _ => True) := h.pairwise hless (List.pairwise_of_forall fun _ _ => trivial)
  exact hgoes.imp fun hab => hab.not_less hless

/-- From the other end, a sorted list is in order for the comparison from the other side. -/
theorem reverse (h : Sorts less l out) : Sorts (fun a b => less b a) l.reverse out.reverse where
  perm := (List.reverse_perm out).trans (h.perm.trans (List.reverse_perm l).symm)
  pairwise hless before hl := by
    rw [List.pairwise_reverse] at hl ⊢
    exact h.pairwise hless.flip hl

end Sorts

/-! ## Insertion -/

theorem perm_insertLatest (less : α → α → Bool) (a : α) (l : List α) : (insertLatest less a l).Perm (a :: l) := by
  induction l with
  | nil => exact List.Perm.refl _
  | cons b rest ih =>
    rw [insertLatest]
    split
    · exact (ih.cons b).trans (List.Perm.swap a b rest)
    · exact List.Perm.refl _

/-- An element is put where it belongs among sorted elements, the last one first. -/
theorem pairwise_insertLatest (h : Consistent less) {before : α → α → Prop} {a : α} {l : List α}
    (hl : l.Pairwise fun x y => Goes less before y x) (ha : ∀ b ∈ l, before b a) :
    (insertLatest less a l).Pairwise fun x y => Goes less before y x := by
  induction l with
  | nil => exact List.pairwise_singleton _ a
  | cons b rest ih =>
    obtain ⟨hfirst, hrest⟩ := List.pairwise_cons.mp hl
    rw [insertLatest]
    split
    · rename_i hab
      refine List.pairwise_cons.mpr ⟨fun c hc => ?_, ih hrest fun c hc => ha c (List.mem_cons_of_mem b hc)⟩
      rcases List.mem_cons.mp ((perm_insertLatest less a rest).mem_iff.mp hc) with rfl | hc
      · exact .inl hab
      · exact hfirst c hc
    · rename_i hab
      have hab : less a b = false := by simpa using hab
      refine List.pairwise_cons.mpr ⟨fun c hc => .inr ⟨?_, ha c hc⟩, hl⟩
      rcases List.mem_cons.mp hc with rfl | hc
      · exact hab
      · exact h.trans ((hfirst c hc).not_less h) hab

/-- A sorted list stays sorted when an element is inserted. -/
theorem Sorts.insertLatest {l sorted : List α} (h : Sorts less l sorted) (a : α) :
    Sorts less (l ++ [a]) (insertLatest less a sorted.reverse).reverse where
  perm := by
    have hperm := (List.reverse_perm _).trans (perm_insertLatest less a sorted.reverse)
    exact (hperm.trans ((List.reverse_perm sorted).trans h.perm |>.cons a)).trans (List.perm_append_singleton a l).symm
  pairwise hless before hl := by
    obtain ⟨hl, _, hlast⟩ := List.pairwise_append.mp hl
    rw [List.pairwise_reverse]
    refine pairwise_insertLatest hless (List.pairwise_reverse.mpr (h.pairwise hless hl)) fun b hb => ?_
    exact hlast b (h.perm.mem_iff.mp (List.mem_reverse.mp hb)) a (List.mem_singleton_self a)

theorem Sorts.insertAll {l sorted : List α} (h : Sorts less l sorted) (rest : List α) :
    Sorts less (l ++ rest) (insertAll less sorted rest) := by
  induction rest generalizing l sorted with
  | nil => simpa [AdaptiveSort.insertAll] using h
  | cons a rest ih =>
    have hnext := ih (h.insertLatest a)
    rw [AdaptiveSort.insertAll, List.reverse_reverse, List.append_assoc, List.singleton_append] at hnext
    exact hnext

/-- **Insertion sorts.** -/
theorem sorts_insertAll (l : List α) : Sorts less l (insertAll less [] l) :=
  (Sorts.of_length_le_one (l := []) (Nat.zero_le 1)).insertAll l

/-! ## Merges -/

/-- Merging sorted neighbours puts their concatenation in order. -/
theorem pairwise_merge (h : Consistent less) {before : α → α → Prop} {l r : List α} (hl : l.Pairwise (Goes less before))
    (hr : r.Pairwise (Goes less before)) (hcross : ∀ a ∈ l, ∀ b ∈ r, before a b) :
    (List.merge l r fun a b => !less b a).Pairwise (Goes less before) := by
  induction l generalizing r with
  | nil => simpa using hr
  | cons a l ihl =>
    induction r with
    | nil => simpa using hl
    | cons b r ihr =>
      obtain ⟨hfirst, htail⟩ := List.pairwise_cons.mp hl
      obtain ⟨hfirst', htail'⟩ := List.pairwise_cons.mp hr
      rw [List.cons_merge_cons]
      cases hba : less b a with
      | false =>
        rw [if_pos (by simp)]
        refine List.pairwise_cons.mpr ⟨fun c hc => ?_, ihl htail hr fun x hx => hcross x (List.mem_cons_of_mem a hx)⟩
        rcases List.mem_merge.mp hc with hc | hc
        · exact hfirst c hc
        · refine .inr ⟨?_, hcross a List.mem_cons_self c hc⟩
          rcases List.mem_cons.mp hc with rfl | hc
          · exact hba
          · exact h.trans hba ((hfirst' c hc).not_less h)
      | true =>
        rw [if_neg (by simp)]
        refine List.pairwise_cons.mpr
          ⟨fun c hc => ?_, ihr htail' fun x hx y hy => hcross x hx y (List.mem_cons_of_mem b hy)⟩
        rcases List.mem_merge.mp hc with hc | hc
        · left
          rcases List.mem_cons.mp hc with rfl | hc
          · exact hba
          · rcases h.split c hba with hbc | hca
            · exact hbc
            · rw [(hfirst c hc).not_less h] at hca
              cases hca
        · exact hfirst' c hc

/-- Merging sorted neighbours from the front sorts them. -/
theorem Sorts.merge {l r l' r' : List α} (hl : Sorts less l l') (hr : Sorts less r r') :
    Sorts less (l ++ r) (List.merge l' r' fun a b => !less b a) where
  perm := (List.merge_perm_append _).trans (hl.perm.append hr.perm)
  pairwise hless before h := by
    obtain ⟨hleft, hright, hcross⟩ := List.pairwise_append.mp h
    refine pairwise_merge hless (hl.pairwise hless hleft) (hr.pairwise hless hright) fun a ha b hb => ?_
    exact hcross a (hl.perm.mem_iff.mp ha) b (hr.perm.mem_iff.mp hb)

/-- **Merging sorted neighbours sorts them**, from whichever end it goes. -/
theorem Sorts.mergeRuns {l r l' r' : List α} (hl : Sorts less l l') (hr : Sorts less r r') :
    Sorts less (l ++ r) (mergeRuns less l' r') := by
  rw [AdaptiveSort.mergeRuns]
  split
  · exact hl.merge hr
  · have hback := (hr.reverse.merge hl.reverse).reverse
    rw [List.reverse_append, List.reverse_reverse, List.reverse_reverse] at hback
    exact hback

/-! ## Four elements -/

theorem perm_sortTwo (a b : α) : (sortTwo less a b).Perm [a, b] := by
  rw [sortTwo]
  split
  · exact List.Perm.swap a b []
  · exact List.Perm.refl _

theorem sorts_sortTwo (a b : α) : Sorts less [a, b] (sortTwo less a b) := by
  have hinsert : Sorts less [a, b] (insertAll less [] [a, b]) := sorts_insertAll [a, b]
  have heq : insertAll less [] [a, b] = sortTwo less a b := by
    simp only [insertAll, sortTwo, List.foldl_cons, List.foldl_nil, List.reverse_nil, insertLatest]
    split <;> rfl
  exact heq ▸ hinsert

/-- Pairs in order are joined like sorted neighbours. -/
theorem joinPairs_eq_merge (h : Consistent less) {a b c d : α} (hab : less b a = false) (hcd : less d c = false) :
    joinPairs less a b c d = List.merge [a, b] [c, d] fun x y => !less y x := by
  rw [joinPairs]
  cases hca : less c a with
  | false =>
    cases hdb : less d b with
    | false => cases hcb : less c b <;> simp [sortTwo, hca, hdb, hcb]
    | true =>
      have hcb : less c b = true := by
        rcases h.split c hdb with hdc | hcb
        · rw [hcd] at hdc
          cases hdc
        · exact hcb
      simp [sortTwo, hca, hcb, hdb, hcd]
  | true =>
    cases hdb : less d b with
    | false =>
      have hda : less d a = false := h.trans hab hdb
      simp [sortTwo, hca, hdb, hda, hab]
    | true => cases hda : less d a <;> simp [sortTwo, hca, hdb, hda]

theorem perm_joinPairs (a b c d : α) : (joinPairs less a b c d).Perm [a, b, c, d] := by
  rw [joinPairs]
  split
  · exact ((perm_sortTwo b c).append_right [d]).cons a
  · exact (((perm_sortTwo c d).append_right [b]).trans List.perm_append_comm).cons a
  · exact (((perm_sortTwo a b).append_right [d]).cons c).trans List.perm_middle.symm
  · have hrest : ([c, d] ++ [b]).Perm ([b] ++ [c, d]) := List.perm_append_comm
    exact (((perm_sortTwo a d).append_right [b]).cons c).trans ((List.Perm.swap a c [d, b]).trans (hrest.cons a))

/-- Four elements are sorted. -/
theorem sorts_sortFour (a b c d : α) : Sorts less [a, b, c, d] (sortFour less a b c d) where
  perm := by
    have hab : [b, a, c, d].Perm [a, b, c, d] := List.Perm.swap a b [c, d]
    have hcd : [a, b, d, c].Perm [a, b, c, d] := ((List.Perm.swap c d []).cons b).cons a
    rw [sortFour]
    split
    · exact perm_joinPairs a b c d
    · exact (perm_joinPairs a b d c).trans hcd
    · exact (perm_joinPairs b a c d).trans hab
    · exact (perm_joinPairs b a d c).trans (((List.Perm.swap c d []).cons a).cons b |>.trans hab)
  pairwise hless before h := by
    have hmerge : sortFour less a b c d = List.merge (sortTwo less a b) (sortTwo less c d) fun x y => !less y x := by
      rw [sortFour]
      cases hba : less b a <;> cases hdc : less d c
      · simpa [sortTwo, hba, hdc] using joinPairs_eq_merge hless hba hdc
      · simpa [sortTwo, hba, hdc] using joinPairs_eq_merge hless hba (hless.asymm hdc)
      · simpa [sortTwo, hba, hdc] using joinPairs_eq_merge hless (hless.asymm hba) hdc
      · simpa [sortTwo, hba, hdc] using joinPairs_eq_merge hless (hless.asymm hba) (hless.asymm hdc)
    rw [hmerge]
    exact ((sorts_sortTwo a b).merge (sorts_sortTwo c d)).pairwise hless h

/-! ## Halves -/

theorem sorts_sortHalf (four : Bool) (half : List α) : Sorts less half (sortHalf less four half) := by
  rw [sortHalf.eq_def]
  split
  · split
    · exact (sorts_sortFour _ _ _ _).insertAll _
    · exact sorts_insertAll _
  · exact sorts_insertAll _

/-- The front of a merge: what has been taken from either list has been merged, and is followed by what is left. -/
structure IsFront (less : α → α → Bool) (n : Nat) (left right front left' right' taken taken' : List α) : Prop where
  /-- The first list is what has been taken from it and what is left of it. -/
  left_eq : left = taken ++ left'
  /-- The second list is what has been taken from it and what is left of it. -/
  right_eq : right = taken' ++ right'
  /-- The front is the merge of what has been taken. -/
  front_eq : front = List.merge taken taken' fun a b => !less b a
  /-- As many elements have been taken as were asked for. -/
  length_eq : n ≤ left.length → n ≤ right.length → taken.length + taken'.length = n
  /-- Nothing that is left of the second list comes before what has been taken from the first one. -/
  not_less : Consistent less → (right.Pairwise fun a b => less b a = false) →
    ∀ a ∈ taken, ∀ b ∈ right', less b a = false
  /-- What has been taken from the second list comes before everything that is left of the first one. -/
  less : Consistent less → (left.Pairwise fun a b => less b a = false) → ∀ b ∈ taken', ∀ a ∈ left', less b a = true

theorem exists_isFront (less : α → α → Bool) (n : Nat) (left right : List α) :
    ∃ taken taken', IsFront less n left right (takeMerged less n left right).1 (takeMerged less n left right).2.1
      (takeMerged less n left right).2.2 taken taken' := by
  induction n generalizing left right with
  | zero => exact ⟨[], [], by constructor <;> simp [takeMerged]⟩
  | succ n ih =>
    match left, right with
    | [], right => exact ⟨[], [], by constructor <;> simp [takeMerged]⟩
    | a :: left, [] => exact ⟨[], [], by constructor <;> simp [takeMerged]⟩
    | a :: left, b :: right =>
      rw [takeMerged]
      cases hba : less b a with
      | true =>
        obtain ⟨taken, taken', h⟩ := ih (a :: left) right
        refine ⟨taken, b :: taken', h.left_eq, by simpa using h.right_eq, ?_, fun hl hr => ?_, fun hless hr => ?_,
          fun hless hl => ?_⟩
        · cases taken with
          | nil => simp [h.front_eq]
          | cons c taken =>
            obtain rfl : a = c := (List.cons.inj h.left_eq).1
            simp [h.front_eq, hba]
        · have hlength := h.length_eq (by omega) (by simpa using hr)
          simp only [List.length_cons]
          omega
        · exact h.not_less hless hr.of_cons
        · refine List.forall_mem_cons.mpr ⟨fun c hc => ?_, h.less hless hl⟩
          have hmem : c ∈ a :: left := by
            rw [h.left_eq]
            exact List.mem_append_right taken hc
          rcases List.mem_cons.mp hmem with rfl | hc
          · exact hba
          · rcases hless.split c hba with hbc | hca
            · exact hbc
            · rw [(List.pairwise_cons.mp hl).1 c hc] at hca
              cases hca
      | false =>
        obtain ⟨taken, taken', h⟩ := ih left (b :: right)
        refine ⟨a :: taken, taken', by simpa using h.left_eq, h.right_eq, ?_, fun hl hr => ?_, fun hless hr => ?_,
          fun hless hl => ?_⟩
        · cases taken' with
          | nil => simp [h.front_eq]
          | cons c taken' =>
            obtain rfl : b = c := (List.cons.inj h.right_eq).1
            simp [h.front_eq, hba]
        · have hlength := h.length_eq (by simpa using hl) (by omega)
          simp only [List.length_cons]
          omega
        · refine List.forall_mem_cons.mpr ⟨fun c hc => ?_, h.not_less hless hr⟩
          have hmem : c ∈ b :: right := by
            rw [h.right_eq]
            exact List.mem_append_right taken' hc
          rcases List.mem_cons.mp hmem with rfl | hc
          · exact hba
          · exact hless.trans hba ((List.pairwise_cons.mp hr).1 c hc)
        · exact h.less hless hl.of_cons

/-- Two ways to cut a list in two that overlap have an element in common. -/
theorem exists_mem_overlap {l₁ l₂ k₁ k₂ : List α} (h : l₁ ++ l₂ = k₁ ++ k₂) (hlength : k₁.length < l₁.length) :
    ∃ a ∈ l₁, a ∈ k₂ := by
  rcases List.append_eq_append_iff.mp h with ⟨m, rfl, _⟩ | ⟨m, rfl, rfl⟩
  · rw [List.length_append] at hlength
    omega
  · obtain ⟨a, ha⟩ := List.exists_mem_of_length_pos (l := m) (by simpa using hlength)
    exact ⟨a, List.mem_append_right k₁ ha, List.mem_append_left l₂ ha⟩

/-- The two ends of a merge of halves: the front, and the back as a front from the other side. -/
structure Ends (less : α → α → Bool) (left right front left' right' back right'' left'' t t' u u' : List α) : Prop where
  /-- The merge from the front. -/
  first : takeMerged less left.length left right = (front, left', right')
  /-- The merge from the back. -/
  last : takeMerged (fun a b => less b a) left.length right.reverse left.reverse = (back, right'', left'')
  /-- What the front has taken. -/
  front : IsFront less left.length left right front left' right' t t'
  /-- What the back has taken. -/
  back : IsFront (fun a b => less b a) left.length right.reverse left.reverse back right'' left'' u u'

theorem exists_ends (less : α → α → Bool) (left right : List α) :
    ∃ front left' right' back right'' left'' t t' u u',
      Ends less left right front left' right' back right'' left'' t t' u u' := by
  obtain ⟨t, t', hfront⟩ := exists_isFront less left.length left right
  obtain ⟨u, u', hback⟩ := exists_isFront (fun a b => less b a) left.length right.reverse left.reverse
  exact ⟨_, _, _, _, _, _, t, t', u, u', rfl, rfl, hfront, hback⟩

namespace Ends

variable {left right front left' right' back right'' left'' t t' u u' out : List α}
  (h : Ends less left right front left' right' back right'' left'' t t' u u')

include h

theorem left_eq : t ++ left' = left''.reverse ++ u'.reverse := by
  rw [← h.front.left_eq, ← List.reverse_append, ← h.back.right_eq, List.reverse_reverse]

theorem right_eq : t' ++ right' = right''.reverse ++ u.reverse := by
  rw [← h.front.right_eq, ← List.reverse_append, ← h.back.left_eq, List.reverse_reverse]

/-- How many elements both ends have taken, and how many they have left over. -/
theorem lengths (hle : left.length ≤ right.length) :
    (t.length + t'.length = left.length ∧ u.length + u'.length = left.length) ∧
      (t.length + left'.length = left.length ∧ t'.length + right'.length = right.length) ∧
      u'.length + left''.length = left.length ∧ u.length + right''.length = right.length := by
  have hleft := congrArg List.length h.front.left_eq
  have hright := congrArg List.length h.front.right_eq
  have hleft' := congrArg List.length h.back.right_eq
  have hright' := congrArg List.length h.back.left_eq
  rw [List.length_append] at hleft hright
  rw [List.length_reverse, List.length_append] at hleft' hright'
  have htaken := h.front.length_eq (Nat.le_refl _) hle
  have htaken' := h.back.length_eq (by simpa using hle) (by simp)
  exact ⟨⟨htaken, htaken'⟩, ⟨hleft.symm, hright.symm⟩, hleft'.symm, hright'.symm⟩

/-- If a merge of halves does not give up, its ends leave over at most one element between them. -/
theorem exists_middle (hle : left.length ≤ right.length) (hlt : right.length ≤ left.length + 1)
    (hout : mergeHalves less left right = some out) :
    ∃ m m', left' = m ++ u'.reverse ∧ right' = m' ++ u.reverse ∧ (m ++ m').length ≤ 1 ∧
      out = front ++ (m ++ m') ++ back.reverse := by
  obtain ⟨⟨htaken, htaken'⟩, ⟨hleft, hright⟩, hleft', hright'⟩ := h.lengths hle
  have heq := h.left_eq
  have heq' := h.right_eq
  simp only [mergeHalves, h.first, h.last] at hout
  split at hout
  · refine ⟨[], right'.take (right.length - left.length), ?_, ?_, by simp; omega, (Option.some.inj hout).symm⟩
    · exact (List.append_inj heq (by simp; omega)).2
    · have hsplit := List.take_append_drop (right.length - left.length) right'
      rw [← hsplit, ← List.append_assoc] at heq'
      have hdrop := (List.append_inj' heq' (by simp; omega)).2
      rw [← hdrop, hsplit]
  · split at hout
    · refine ⟨left'.take 1, [], ?_, ?_, ?_, by simpa using (Option.some.inj hout).symm⟩
      · have hsplit := List.take_append_drop 1 left'
        rw [← hsplit, ← List.append_assoc] at heq
        have hdrop := (List.append_inj' heq (by simp; omega)).2
        rw [← hdrop, hsplit]
      · exact (List.append_inj' heq' (by simp; omega)).2
      · rw [List.append_nil]
        exact List.length_take_le 1 left'
    · cases hout

end Ends

/-- The parts of two sorted halves that a merge from both ends has put in order: what has been taken from the front,
from the back, and what is between them. -/
structure Parts (less : α → α → Bool) (l₁ m l₂ r₁ m' r₂ : List α) : Prop where
  /-- Nothing behind the front of the second half comes before the front of the first one. -/
  front : ∀ a ∈ l₁, ∀ b ∈ m' ++ r₂, less b a = false
  /-- The front of the second half comes before everything behind the front of the first one. -/
  front' : ∀ b ∈ r₁, ∀ a ∈ m ++ l₂, less b a = true
  /-- The back of the second half does not come before anything before the back of the first one. -/
  back : ∀ b ∈ r₂, ∀ a ∈ l₁ ++ m, less b a = false
  /-- Everything before the back of the second half comes before the back of the first one. -/
  back' : ∀ a ∈ l₂, ∀ b ∈ r₁ ++ m', less b a = true

/-- **A merge of halves that does not give up** has merged the front, and the back from the other side, with at most one
element between them. -/
theorem exists_of_mergeHalves {left right out : List α} (hle : left.length ≤ right.length)
    (hlt : right.length ≤ left.length + 1) (h : mergeHalves less left right = some out) :
    ∃ l₁ m l₂ r₁ m' r₂, left = l₁ ++ m ++ l₂ ∧ right = r₁ ++ m' ++ r₂ ∧ (m ++ m').length ≤ 1 ∧
      out = (List.merge l₁ r₁ fun a b => !less b a) ++ (m ++ m') ++
        (List.merge r₂.reverse l₂.reverse fun a b => !less a b).reverse ∧
      (Consistent less → (left.Pairwise fun a b => less b a = false) → (right.Pairwise fun a b => less b a = false) →
        Parts less l₁ m l₂ r₁ m' r₂) := by
  obtain ⟨front, left', right', back, right'', left'', t, t', u, u', hends⟩ := exists_ends less left right
  obtain ⟨m, m', rfl, rfl, hmiddle, rfl⟩ := hends.exists_middle hle hlt h
  have heq := hends.left_eq
  have heq' := hends.right_eq
  rw [← List.append_assoc] at heq heq'
  -- The middle makes up what one end has left over together with what the other end has taken.
  have hbefore := List.append_cancel_right heq
  have hbefore' := List.append_cancel_right heq'
  refine ⟨t, m, u'.reverse, t', m', u.reverse, ?_, ?_, hmiddle, ?_, fun hless hl hr => ?_⟩
  · rw [List.append_assoc]
    exact hends.front.left_eq
  · rw [List.append_assoc]
    exact hends.front.right_eq
  · rw [hends.front.front_eq, hends.back.front_eq, List.reverse_reverse, List.reverse_reverse]
  · have hbacks := hends.back.not_less hless.flip (List.pairwise_reverse.mpr hl)
    have hbacks' := hends.back.less hless.flip (List.pairwise_reverse.mpr hr)
    refine ⟨hends.front.not_less hless hr, hends.front.less hless hl, fun b hb a ha => ?_, fun a ha b hb => ?_⟩
    · exact hbacks b (List.mem_reverse.mp hb) a (List.mem_reverse.mp (hbefore ▸ ha))
    · exact hbacks' a (List.mem_reverse.mp ha) b (List.mem_reverse.mp (hbefore' ▸ hb))

/-- **A merge of sorted halves does not give up** on a consistent comparison: if its ends did not meet, then they would
both have taken an element of one half, and left over an element of the other. -/
theorem mergeHalves_ne_none (hless : Consistent less) {left right : List α} (hle : left.length ≤ right.length)
    (hlt : right.length ≤ left.length + 1) (hl : left.Pairwise fun a b => less b a = false)
    (hr : right.Pairwise fun a b => less b a = false) : mergeHalves less left right ≠ none := by
  obtain ⟨front, left', right', back, right'', left'', t, t', u, u', hends⟩ := exists_ends less left right
  obtain ⟨⟨htaken, htaken'⟩, ⟨hleft, hright⟩, hleft', hright'⟩ := hends.lengths hle
  have hbacks := hends.back.not_less hless.flip (List.pairwise_reverse.mpr hl)
  have hbacks' := hends.back.less hless.flip (List.pairwise_reverse.mpr hr)
  simp only [mergeHalves, hends.first, hends.last]
  split
  · simp
  split
  · simp
  rename_i hmeet hmeet'
  rcases Nat.lt_or_ge (left'.length + left''.length) left.length with hshort | hlong
  · obtain ⟨a, ha, ha'⟩ := exists_mem_overlap hends.left_eq (by simp; omega)
    obtain ⟨b, hb, hb'⟩ := exists_mem_overlap hends.right_eq.symm (by simp; omega)
    have hforth := hends.front.not_less hless hr a ha b hb'
    rw [hbacks' a (List.mem_reverse.mp ha') b (List.mem_reverse.mp hb)] at hforth
    cases hforth
  · obtain ⟨a, ha, ha'⟩ := exists_mem_overlap hends.left_eq.symm (by simp; omega)
    obtain ⟨b, hb, hb'⟩ := exists_mem_overlap hends.right_eq (by simp; omega)
    have hforth := hends.front.less hless hl b hb a ha'
    rw [hbacks b (List.mem_reverse.mp hb') a (List.mem_reverse.mp ha)] at hforth
    cases hforth

/-- Parts of two sorted neighbours go in order if the fronts, the middle, and the backs follow each other. -/
theorem Parts.pairwise {before : α → α → Prop} {l₁ m l₂ r₁ m' r₂ : List α} (hless : Consistent less)
    (h : Parts less l₁ m l₂ r₁ m' r₂) (hl : (l₁ ++ m ++ l₂).Pairwise (Goes less before))
    (hr : (r₁ ++ m' ++ r₂).Pairwise (Goes less before))
    (hcross : ∀ a ∈ l₁ ++ m ++ l₂, ∀ b ∈ r₁ ++ m' ++ r₂, before a b) (hmiddle : (m ++ m').length ≤ 1) :
    ((List.merge l₁ r₁ fun a b => !less b a) ++ (m ++ m') ++
      (List.merge r₂.reverse l₂.reverse fun a b => !less a b).reverse).Pairwise (Goes less before) := by
  simp only [List.mem_append] at hcross
  obtain ⟨hl, hl₂, hlast⟩ := List.pairwise_append.mp hl
  obtain ⟨hl₁, _, hfirst⟩ := List.pairwise_append.mp hl
  obtain ⟨hr, hr₂, hlast'⟩ := List.pairwise_append.mp hr
  obtain ⟨hr₁, _, hfirst'⟩ := List.pairwise_append.mp hr
  simp only [List.mem_append] at hlast hlast'
  obtain ⟨hfront, hfront', hback, hback'⟩ := h
  simp only [List.mem_append] at hfront hfront' hback hback'
  have hmerged : (List.merge l₁ r₁ fun a b => !less b a).Pairwise (Goes less before) :=
    pairwise_merge hless hl₁ hr₁ fun a ha b hb => hcross a (.inl (.inl ha)) b (.inl (.inl hb))
  have hmerged' : (List.merge r₂.reverse l₂.reverse fun a b => !less a b).reverse.Pairwise (Goes less before) := by
    rw [List.pairwise_reverse]
    refine pairwise_merge hless.flip (List.pairwise_reverse.mpr hr₂) (List.pairwise_reverse.mpr hl₂) fun b hb a ha => ?_
    exact hcross a (.inr (List.mem_reverse.mp ha)) b (.inr (List.mem_reverse.mp hb))
  refine List.pairwise_append.mpr ⟨List.pairwise_append.mpr ⟨hmerged, ?_, ?_⟩, hmerged', ?_⟩
  · exact pairwise_of_length_le_one hmiddle
  · intro a ha b hb
    have ha := List.mem_merge.mp ha
    rw [List.mem_append] at hb
    rcases ha with ha | ha <;> rcases hb with hb | hb
    · exact hfirst a ha b hb
    · exact .inr ⟨hfront a ha b (.inl hb), hcross a (.inl (.inl ha)) b (.inl (.inr hb))⟩
    · exact .inl (hfront' a ha b (.inl hb))
    · exact hfirst' a ha b hb
  · intro a ha b hb
    have hb := List.mem_merge.mp (List.mem_reverse.mp hb)
    rw [List.mem_reverse, List.mem_reverse] at hb
    rw [List.mem_append, List.mem_merge, List.mem_append] at ha
    rcases ha with (ha | ha) | (ha | ha) <;> rcases hb with hb | hb
    · exact .inr ⟨hback b hb a (.inl ha), hcross a (.inl (.inl ha)) b (.inr hb)⟩
    · exact hlast a (.inl ha) b hb
    · exact hlast' a (.inl ha) b hb
    · exact .inl (hback' b hb a (.inl ha))
    · exact .inr ⟨hback b hb a (.inr ha), hcross a (.inl (.inr ha)) b (.inr hb)⟩
    · exact hlast a (.inr ha) b hb
    · exact hlast' a (.inr ha) b hb
    · exact .inl (hback' b hb a (.inr ha))

/-- A merge of sorted halves sorts them. -/
theorem Sorts.mergeHalves {l r l' r' out : List α} (hl : Sorts less l l') (hr : Sorts less r r')
    (hle : l'.length ≤ r'.length) (hlt : r'.length ≤ l'.length + 1) (h : mergeHalves less l' r' = some out) :
    Sorts less (l ++ r) out := by
  obtain ⟨l₁, m, l₂, r₁, m', r₂, hleft, hright, hmiddle, rfl, hparts⟩ := exists_of_mergeHalves hle hlt h
  constructor
  case perm =>
    have hback : ((List.merge r₂.reverse l₂.reverse fun a b => !less a b).reverse).Perm (r₂ ++ l₂) :=
      (List.reverse_perm _).trans
        ((List.merge_perm_append _).trans ((List.reverse_perm r₂).append (List.reverse_perm l₂)))
    have hfront : (List.merge l₁ r₁ fun a b => !less b a).Perm (l₁ ++ r₁) := List.merge_perm_append _
    refine (((hfront.append_right (m ++ m')).append hback).trans ?_).trans (hl.perm.append hr.perm)
    rw [hleft, hright]
    classical
    refine List.perm_iff_count.mpr fun a => ?_
    simp only [List.count_append]
    omega
  case pairwise =>
    intro hless before hbefore
    obtain ⟨hp, hq, hcross⟩ := List.pairwise_append.mp hbefore
    have hcross : ∀ a ∈ l', ∀ b ∈ r', before a b := fun a ha b hb =>
      hcross a (hl.perm.mem_iff.mp ha) b (hr.perm.mem_iff.mp hb)
    have hparts := hparts hless (hl.pairwise_not_less hless) (hr.pairwise_not_less hless)
    have hp := hl.pairwise hless hp
    have hq := hr.pairwise hless hq
    rw [hleft] at hp hcross
    rw [hright] at hq hcross
    exact hparts.pairwise hless hp hq hcross hmiddle

/-! ## Short parts -/

section

variable {part out : List α}

/-- The halves of a part that is long enough have the lengths that a merge of halves asks for. -/
theorem length_halves (less : α → α → Bool) (four : Bool) (part : List α) :
    (sortHalf less four (part.take (part.length / 2))).length ≤
        (sortHalf less four (part.drop (part.length / 2))).length ∧
      (sortHalf less four (part.drop (part.length / 2))).length ≤
        (sortHalf less four (part.take (part.length / 2))).length + 1 := by
  rw [(sorts_sortHalf four _).perm.length_eq, (sorts_sortHalf four _).perm.length_eq, List.length_take,
    List.length_drop]
  omega

/-- **A short part is sorted**, unless the sort gives up. -/
theorem sorts_sortShort (h : sortShort less part = some out) : Sorts less part out := by
  rw [sortShort] at h
  split at h
  · obtain rfl := Option.some.inj h
    exact Sorts.of_length_le_one (by omega)
  · obtain ⟨hle, hlt⟩ := length_halves less (decide (8 ≤ part.length)) part
    have hsorts := (sorts_sortHalf _ _).mergeHalves (sorts_sortHalf _ _) hle hlt h
    rwa [List.take_append_drop] at hsorts

/-- **The sort of a short part does not give up** on a consistent comparison. -/
theorem sortShort_ne_none (hless : Consistent less) (part : List α) : sortShort less part ≠ none := by
  rw [sortShort]
  split
  · simp
  · obtain ⟨hle, hlt⟩ := length_halves less (decide (8 ≤ part.length)) part
    exact mergeHalves_ne_none hless hle hlt ((sorts_sortHalf _ _).pairwise_not_less hless)
      ((sorts_sortHalf _ _).pairwise_not_less hless)

end

end GuardedQuery.AdaptiveSort
