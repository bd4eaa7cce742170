import GuardedQuery.Proofs.AdaptiveSort.Merging
import Mathlib.Data.List.Forall2

/-!
# Sorted lists

A list is cut into stretches, and each stretch covers a part of the list: the same elements, in order or as they were.
Neighbours are joined into a stretch that covers both parts, so the last one covers the whole list, whichever boundaries
are worked off first. A part without order is partitioned by pivots: what comes before the pivot, sorted, is followed by
the rest, sorted.

## Main definitions

* `AdaptiveSort.Stretch.Covers`: a stretch that stands for a part of a list.

## Main statements

* `AdaptiveSort.sorts_sortStretches`, `AdaptiveSort.sorts_quicksort`: both ways to sort a long part.
* `AdaptiveSort.sorts_sort`: a list is sorted.
* `AdaptiveSort.exists_sort`: the sort does not give up on a consistent comparison.
-/

namespace GuardedQuery.AdaptiveSort

variable {α : Type} {less : α → α → Bool}

/-! ## Runs -/

theorem isChain_runTail (less : α → α → Bool) (down : Bool) (a : α) (l : List α) :
    (a :: l.take (runTail less down a l)).IsChain fun x y => less y x = down := by
  induction l generalizing a with
  | nil => simp
  | cons b rest ih =>
    rw [runTail]
    split
    · rename_i hba
      exact (ih b).cons_cons (by simpa using hba)
    · simp

/-- A run that goes up is in order, and one that goes down is from the other end. -/
theorem sorts_of_isChain {l : List α} {down : Bool} (h : l.IsChain fun x y => less y x = down) :
    Sorts less l (if down then l.reverse else l) where
  perm := by
    cases down with
    | false => exact List.Perm.refl l
    | true => exact List.reverse_perm l
  pairwise hless before hl := by
    cases down with
    | false =>
      have htrans : Trans (fun x y => less y x = false) (fun x y => less y x = false) fun x y => less y x = false :=
        ⟨fun hxy hyz => hless.trans hxy hyz⟩
      exact (h.pairwise.and hl).imp fun ⟨hab, hbefore⟩ => .inr ⟨hab, hbefore⟩
    | true =>
      have htrans : Trans (fun x y => less y x = true) (fun x y => less y x = true) fun x y => less y x = true := by
        constructor
        intro x y z hyx hzy
        rcases hless.split x hzy with hzx | hxy
        · exact hzx
        · rw [hless.asymm hyx] at hxy
          cases hxy
      rw [if_pos rfl, List.pairwise_reverse]
      exact h.pairwise.imp fun hba => .inl hba

/-- The first run of a list is put in order. -/
theorem sorts_firstRun (l : List α) :
    Sorts less (l.take (firstRun less l).1)
      (if (firstRun less l).2 then (l.take (firstRun less l).1).reverse else l.take (firstRun less l).1) := by
  match l with
  | [] => exact Sorts.of_length_le_one (by simp)
  | [a] => exact Sorts.of_length_le_one (by simp [firstRun])
  | a :: b :: rest => exact sorts_of_isChain (isChain_runTail less (less b a) a (b :: rest))

theorem firstRun_pos {l : List α} (h : l ≠ []) : 0 < (firstRun less l).1 := by
  match l with
  | [] => exact absurd rfl h
  | [a] => exact Nat.one_pos
  | a :: b :: rest => exact Nat.succ_pos _

/-! ## Stretches -/

namespace Stretch

/-- A stretch stands for a part of a list: the part in order, or as it was. -/
structure Covers (less : α → α → Bool) (s : Stretch α) (part : List α) : Prop where
  /-- A sorted stretch has the part in order. -/
  sorted : s.sorted = true → Sorts less part s.items
  /-- Any other stretch is the part. -/
  raw : s.sorted = false → s.items = part

/-- The elements of a stretch in order are those of its part. -/
theorem Covers.settled {s : Stretch α} {part out : List α} {settle : List α → Option (List α)}
    (hsettle : ∀ l out, settle l = some out → Sorts less l out) (h : s.Covers less part)
    (hout : s.settled settle = some out) : Sorts less part out := by
  rw [Stretch.settled] at hout
  split at hout
  · rename_i hsorted
    exact Option.some.inj hout ▸ h.sorted hsorted
  · rename_i hraw
    exact hsettle part out (h.raw (by simpa using hraw) ▸ hout)

end Stretch

theorem covers_nextStretch {eager : Bool} {good : Nat} {l rest : List α} {s : Stretch α} (hgood : 0 < good)
    (hl : l ≠ []) (h : nextStretch less eager good l = some (s, rest)) :
    ∃ part, part ≠ [] ∧ l = part ++ rest ∧ s.Covers less part := by
  have htake : ∀ n, 0 < n → l.take n ≠ [] := by
    intro n hn hnil
    rcases List.take_eq_nil_iff.mp hnil with rfl | hnil
    · exact absurd hn (Nat.lt_irrefl 0)
    · exact hl hnil
  rw [nextStretch] at h
  dsimp only at h
  split at h
  · obtain ⟨rfl, rfl⟩ := Prod.mk.inj (Option.some.inj h)
    exact ⟨_, htake _ (firstRun_pos hl), (List.take_append_drop _ l).symm, fun _ => sorts_firstRun l, by simp⟩
  · split at h
    · obtain ⟨items, hitems, heq⟩ := Option.map_eq_some_iff.mp h
      obtain ⟨rfl, rfl⟩ := Prod.mk.inj heq
      exact ⟨_, htake _ (by decide), (List.take_append_drop _ l).symm, fun _ => sorts_sortShort hitems, by simp⟩
    · obtain ⟨rfl, rfl⟩ := Prod.mk.inj (Option.some.inj h)
      exact ⟨_, htake _ hgood, (List.take_append_drop _ l).symm, by simp, fun _ => rfl⟩

/-- The stretches of a list cover its parts. -/
theorem covers_stretches {eager : Bool} {good n : Nat} {l : List α} {ss : List (Stretch α)} (hgood : 0 < good)
    (hn : l.length ≤ n) (h : stretches less eager good n l = some ss) :
    ∃ parts, List.Forall₂ (Stretch.Covers less) ss parts ∧ l = parts.flatten := by
  induction n generalizing l ss with
  | zero =>
    obtain rfl := List.length_eq_zero_iff.mp (Nat.le_zero.mp hn)
    obtain rfl := Option.some.inj h
    exact ⟨[], .nil, rfl⟩
  | succ n ih =>
    cases l with
    | nil =>
      obtain rfl := Option.some.inj h
      exact ⟨[], .nil, rfl⟩
    | cons a l =>
      obtain ⟨⟨first, rest⟩, hfirst, h⟩ := Option.bind_eq_some_iff.mp h
      obtain ⟨others, hothers, h⟩ := Option.bind_eq_some_iff.mp h
      obtain rfl := Option.some.inj h
      obtain ⟨part, hpart, hcut, hcovers⟩ := covers_nextStretch hgood (List.cons_ne_nil a l) hfirst
      have hpos := List.length_pos_iff.mpr hpart
      have hlength := congrArg List.length hcut
      rw [List.length_append] at hlength
      obtain ⟨parts, hparts, rfl⟩ := ih (by omega) hothers
      exact ⟨part :: parts, .cons hcovers hparts, hcut⟩

/-! ## Merging stretches -/

section

variable {settle : List α → Option (List α)} (hsettle : ∀ l out, settle l = some out → Sorts less l out)

include hsettle

theorem covers_join {room : Nat} {left right s : Stretch α} {part part' : List α} (hleft : left.Covers less part)
    (hright : right.Covers less part') (h : join less settle room left right = some s) :
    s.Covers less (part ++ part') := by
  rw [join] at h
  split at h
  · rename_i hraw
    obtain rfl := Option.some.inj h
    exact ⟨by simp, fun _ => by rw [hleft.raw hraw.2.1, hright.raw hraw.2.2]⟩
  · obtain ⟨l, hl, h⟩ := Option.bind_eq_some_iff.mp h
    obtain ⟨r, hr, h⟩ := Option.bind_eq_some_iff.mp h
    obtain rfl := Option.some.inj h
    exact ⟨fun _ => (hleft.settled hsettle hl).mergeRuns (hright.settled hsettle hr), by simp⟩

/-- Joining a stretch with neighbours on the left keeps what the stack and the stretch cover together. -/
theorem covers_collapse {room depth : Nat} {current s : Stretch α} {stack stack' : List (Stretch α × Nat)}
    {parts : List (List α)} {part : List α} (hstack : List.Forall₂ (fun e p => e.1.Covers less p) stack parts)
    (hcurrent : current.Covers less part) (h : collapse less settle room depth current stack = some (s, stack')) :
    ∃ parts' part', List.Forall₂ (fun e p => e.1.Covers less p) stack' parts' ∧ s.Covers less part' ∧
      parts'.reverse.flatten ++ part' = parts.reverse.flatten ++ part := by
  induction hstack generalizing current part with
  | nil =>
    obtain ⟨rfl, rfl⟩ := Prod.mk.inj (Option.some.inj h)
    exact ⟨[], part, .nil, hcurrent, rfl⟩
  | @cons e p rest parts htop hrest ih =>
    obtain ⟨top, d⟩ := e
    rw [collapse] at h
    split at h
    · obtain ⟨joined, hjoined, h⟩ := Option.bind_eq_some_iff.mp h
      obtain ⟨parts', part', hstack', hs, hcover⟩ := ih (covers_join hsettle htop hcurrent hjoined) h
      exact ⟨parts', part', hstack', hs, by simp [hcover]⟩
    · obtain ⟨rfl, rfl⟩ := Prod.mk.inj (Option.some.inj h)
      exact ⟨p :: parts, part, .cons htop hrest, hcurrent, rfl⟩

omit hsettle in
theorem collapse_zero {room : Nat} {current s : Stretch α} {stack stack' : List (Stretch α × Nat)}
    (h : collapse less settle room 0 current stack = some (s, stack')) : stack' = [] := by
  induction stack generalizing current with
  | nil => exact (Prod.mk.inj (Option.some.inj h)).2.symm
  | cons e rest ih =>
    rw [collapse, if_pos (Nat.zero_le _)] at h
    obtain ⟨joined, _, h⟩ := Option.bind_eq_some_iff.mp h
    exact ih h

/-- **Merging stretches covers what they cover together**, whatever the depths of their boundaries. -/
theorem covers_mergeStretches {room total scanned : Nat} {current s : Stretch α} {stack : List (Stretch α × Nat)}
    {rest : List (Stretch α)} {parts parts' : List (List α)} {part : List α}
    (hstack : List.Forall₂ (fun e p => e.1.Covers less p) stack parts) (hcurrent : current.Covers less part)
    (hrest : List.Forall₂ (Stretch.Covers less) rest parts')
    (h : mergeStretches less settle room total scanned current stack rest = some s) :
    s.Covers less (parts.reverse.flatten ++ part ++ parts'.flatten) := by
  induction hrest generalizing scanned current stack parts part with
  | nil =>
    obtain ⟨⟨s, stack'⟩, hcollapse, rfl⟩ := Option.map_eq_some_iff.mp h
    obtain ⟨parts', part', hstack', hs, hcover⟩ := covers_collapse hsettle hstack hcurrent hcollapse
    obtain rfl := collapse_zero hcollapse
    cases hstack'
    simpa [← hcover] using hs
  | cons hnext hothers ih =>
    obtain ⟨⟨joined, stack'⟩, hcollapse, h⟩ := Option.bind_eq_some_iff.mp h
    obtain ⟨parts', part', hstack', hjoined, hcover⟩ := covers_collapse hsettle hstack hcurrent hcollapse
    have hcovers := ih (.cons hjoined hstack') hnext h
    simpa [← hcover] using hcovers

end

theorem goodLength_pos {total : Nat} (h : 0 < total) : 0 < goodLength total := by
  rw [goodLength]
  split
  · omega
  · have hlog : 1 ≤ total.log2 := (Nat.le_log2 (by omega)).mpr (by omega)
    have hshift : 2 ≤ 1 <<< ((1 + total.log2) / 2) := by
      rw [Nat.one_shiftLeft]
      exact Nat.le_self_pow (by omega) 2
    exact Nat.div_pos (Nat.le_add_right_of_le hshift) (by decide)

/-- **A list is sorted by stretches**, if its stretches can be sorted. -/
theorem sorts_sortStretches {eager : Bool} {settle : List α → Option (List α)} {l out : List α}
    (hsettle : ∀ l out, settle l = some out → Sorts less l out)
    (h : sortStretches less eager settle l = some out) : Sorts less l out := by
  obtain ⟨ss, hss, h⟩ := Option.bind_eq_some_iff.mp h
  rcases l.eq_nil_or_concat with rfl | ⟨_, _, rfl⟩
  · obtain rfl := Option.some.inj hss
    obtain rfl := Option.some.inj h
    exact Sorts.of_length_le_one (by simp)
  · obtain ⟨parts, hparts, hflatten⟩ := covers_stretches (goodLength_pos (by simp)) (Nat.le_refl _) hss
    cases hparts with
    | nil => simp at hflatten
    | cons hfirst hrest =>
      obtain ⟨whole, hwhole, h⟩ := Option.bind_eq_some_iff.mp h
      have hcovers := covers_mergeStretches hsettle .nil hfirst hrest hwhole
      rw [hflatten]
      exact hcovers.settled hsettle h

/-! ## Parts without order -/

theorem medianAt_le {l : List α} {i j k n : Nat} (hi : i ≤ n) (hj : j ≤ n) (hk : k ≤ n) :
    medianAt less l i j k ≤ n := by
  rw [medianAt]
  split
  · split
    · exact hj
    · exact hk
  · exact hi

theorem pivotAt_le (less : α → α → Bool) (l : List α) (levels start length : Nat) :
    pivotAt less l levels start length ≤ start + (length - 1) := by
  induction levels generalizing start length with
  | zero => exact Nat.le_add_right start (length - 1)
  | succ levels ih =>
    have hfirst := ih start (length / 8)
    have hsecond := ih (start + length / 8 * 4) (length / 8)
    have hthird := ih (start + length / 8 * 7) (length / 8)
    exact medianAt_le (by omega) (by omega) (by omega)

/-- The pivot of a list is one of its elements. -/
theorem pivotPlace_lt {l : List α} (h : 0 < l.length) : pivotPlace less l < l.length := by
  have hle := pivotAt_le less l (l.length.log2 / 3) 0 l.length
  rw [pivotPlace]
  omega

/-- A list in which no element comes before another one is in order. -/
theorem Sorts.of_tied {l : List α} (h : Consistent less → ∀ a ∈ l, ∀ b ∈ l, less a b = false) : Sorts less l l where
  perm := List.Perm.refl l
  pairwise hless _ hl := hl.imp_of_mem fun ha hb hab => .inr ⟨h hless _ hb _ ha, hab⟩

/-- Two parts of a list, of which the first one comes before the second one, are sorted one after the other. -/
theorem Sorts.append {l l₁ l₂ out₁ out₂ : List α} (h₁ : Sorts less l₁ out₁) (h₂ : Sorts less l₂ out₂)
    (hperm : (l₁ ++ l₂).Perm l) (hl₁ : l₁.Sublist l) (hl₂ : l₂.Sublist l)
    (hcross : Consistent less → ∀ a ∈ l₁, ∀ b ∈ l₂, less a b = true) : Sorts less l (out₁ ++ out₂) where
  perm := (h₁.perm.append h₂.perm).trans hperm
  pairwise hless before hl := by
    refine List.pairwise_append.mpr
      ⟨h₁.pairwise hless (hl.sublist hl₁), h₂.pairwise hless (hl.sublist hl₂), fun a ha b hb => .inl ?_⟩
    exact hcross hless a (h₁.perm.mem_iff.mp ha) b (h₂.perm.mem_iff.mp hb)

section

variable {before behind : List α} {pivot : α}

/-- A partition has all elements. -/
theorem perm_partition (p : α → Bool) :
    ((before.filter p ++ behind.filter p) ++
      (before.filter (fun a => !p a) ++ pivot :: behind.filter fun a => !p a)).Perm (before ++ pivot :: behind) := by
  have hbefore := List.filter_append_perm p before
  have hbehind := List.filter_append_perm p behind
  classical
  refine List.perm_iff_count.mpr fun a => ?_
  have hcount := hbefore.count_eq a
  have hcount' := hbehind.count_eq a
  simp only [List.count_append, List.count_cons] at hcount hcount' ⊢
  omega

theorem sublist_without (p : α → Bool) : (before.filter p ++ behind.filter p).Sublist (before ++ pivot :: behind) :=
  List.filter_sublist.append (List.filter_sublist.cons pivot)

theorem sublist_with (p : α → Bool) :
    (before.filter p ++ pivot :: behind.filter p).Sublist (before ++ pivot :: behind) :=
  List.filter_sublist.append (List.filter_sublist.cons_cons pivot)

theorem of_mem_without (p : α → Bool) {a : α} (h : a ∈ before.filter p ++ behind.filter p) : p a = true := by
  rcases List.mem_append.mp h with h | h
  · exact (List.mem_filter.mp h).2
  · exact (List.mem_filter.mp h).2

theorem mem_without (p : α → Bool) {a : α} (hpivot : p pivot = false) (h : a ∈ before ++ pivot :: behind)
    (ha : p a = true) : a ∈ before.filter p ++ behind.filter p := by
  rcases List.mem_append.mp h with h | h
  · exact List.mem_append_left _ (List.mem_filter.mpr ⟨h, ha⟩)
  · rcases List.mem_cons.mp h with rfl | h
    · rw [hpivot] at ha
      cases ha
    · exact List.mem_append_right _ (List.mem_filter.mpr ⟨h, ha⟩)

theorem of_mem_with (p : α → Bool) {a : α} (hpivot : p pivot = false)
    (h : a ∈ before.filter (fun a => !p a) ++ pivot :: behind.filter fun a => !p a) : p a = false := by
  rcases List.mem_append.mp h with h | h
  · simpa using (List.mem_filter.mp h).2
  · rcases List.mem_cons.mp h with rfl | h
    · exact hpivot
    · simpa using (List.mem_filter.mp h).2

/-- What comes before the pivot, sorted, is followed by the rest, sorted. -/
theorem Sorts.partition {left right : List α}
    (hleft : Sorts less (before.filter (fun a => less a pivot) ++ behind.filter fun a => less a pivot) left)
    (hright :
      Sorts less (before.filter (fun a => !less a pivot) ++ pivot :: behind.filter fun a => !less a pivot) right) :
    Sorts less (before ++ pivot :: behind) (left ++ right) := by
  refine hleft.append hright (perm_partition _) (sublist_without _) (sublist_with _) fun hless a ha b hb => ?_
  have hbp : less b pivot = false := of_mem_with (less · pivot) (hless.irrefl pivot) hb
  rcases hless.split b (of_mem_without (less · pivot) ha) with hab | hpb
  · exact hab
  · rw [hbp] at hpb
    cases hpb

/-- What does not come after a pivot that no element precedes is followed by the rest, sorted. -/
theorem Sorts.partitionTied {right : List α}
    (hpivot : Consistent less → ∀ a ∈ before ++ pivot :: behind, less a pivot = false)
    (hright : Sorts less (before.filter (fun a => less pivot a) ++ behind.filter fun a => less pivot a) right) :
    Sorts less (before ++ pivot :: behind)
      ((before.filter (fun a => !less pivot a) ++ pivot :: behind.filter fun a => !less pivot a) ++ right) := by
  have htied : Consistent less →
      ∀ a ∈ before.filter (fun a => !less pivot a) ++ pivot :: behind.filter fun a => !less pivot a,
        less pivot a = false :=
    fun hless a ha => of_mem_with (less pivot ·) (hless.irrefl pivot) ha
  refine Sorts.append (Sorts.of_tied fun hless a ha b hb => ?_) hright
    (List.perm_append_comm.trans (perm_partition _)) (sublist_with _) (sublist_without _) fun hless a ha b hb => ?_
  · exact hless.trans (htied hless b hb) (hpivot hless a ((sublist_with _).subset ha))
  · rcases hless.split a (of_mem_without (less pivot ·) hb) with hpa | hab
    · rw [htied hless a ha] at hpa
      cases hpa
    · exact hab

end

/-- **A list is sorted by partitions.** No element comes before the bound, so nothing comes before a pivot that the
bound does not come before. -/
theorem sorts_quicksort {limit : Nat} {bound : Option α} {l out : List α}
    (hbound : Consistent less → ∀ b ∈ bound, ∀ a ∈ l, less a b = false)
    (h : quicksort less limit bound l = some out) : Sorts less l out := by
  induction limit generalizing bound l out with
  | zero =>
    rw [quicksort] at h
    split at h
    · exact sorts_sortShort h
    · exact sorts_sortStretches (fun _ _ => sorts_sortShort) h
  | succ limit ih =>
    rw [quicksort] at h
    split at h
    · exact sorts_sortShort h
    rename_i hlong
    have hplace : pivotPlace less l < l.length := pivotPlace_lt (by omega)
    dsimp only at h
    split at h
    · rename_i hdrop
      have hempty := List.drop_eq_nil_iff.mp hdrop
      omega
    rename_i pivot behind hdrop
    have hcut : l.take (pivotPlace less l) ++ pivot :: behind = l := by rw [← hdrop, List.take_append_drop]
    rw [← hcut] at hbound ⊢
    split at h
    · rename_i hnone
      obtain ⟨sorted, hsorted, rfl⟩ := Option.map_eq_some_iff.mp h
      refine Sorts.partitionTied (fun hless a ha => ?_) (ih (by simp) hsorted)
      rcases (Bool.or_eq_true _ _).mp hnone with hnone | hnone
      · obtain ⟨b, hb, hbp⟩ := (Option.any_eq_true _ _).mp hnone
        exact hless.trans (by simpa using hbp) (hbound hless b hb a ha)
      · have hempty := List.isEmpty_iff.mp hnone
        cases hap : less a pivot with
        | false => rfl
        | true =>
          have hmem := mem_without (less · pivot) (hless.irrefl pivot) ha hap
          rw [hempty] at hmem
          cases hmem
    · obtain ⟨right, hright, h⟩ := Option.bind_eq_some_iff.mp h
      obtain ⟨left, hleft, h⟩ := Option.bind_eq_some_iff.mp h
      obtain rfl := Option.some.inj h
      refine Sorts.partition (ih (fun hless b hb a ha => ?_) hleft) (ih (fun hless b hb a ha => ?_) hright)
      · exact hbound hless b hb a ((sublist_without _).subset ha)
      · obtain rfl := Option.some.inj hb
        exact of_mem_with (less · _) (hless.irrefl _) ha

/-- **A list is sorted**, unless the sort gives up. -/
theorem sorts_sort {l out : List α} (h : sort less l = some out) : Sorts less l out := by
  rw [sort] at h
  split at h
  · exact Option.some.inj h ▸ sorts_insertAll l
  · exact sorts_sortStretches (fun _ _ hout => sorts_quicksort (by simp) hout) h

/-! ## Sorts that do not give up -/

section

variable {settle : List α → Option (List α)}

theorem exists_nextStretch (hless : Consistent less) (eager : Bool) (good : Nat) (l : List α) :
    ∃ next, nextStretch less eager good l = some next := by
  obtain ⟨items, hitems⟩ := Option.ne_none_iff_exists'.mp (sortShort_ne_none hless (l.take shortLength))
  rw [nextStretch, hitems]
  dsimp only
  split
  · exact ⟨_, rfl⟩
  · split
    · exact ⟨_, rfl⟩
    · exact ⟨_, rfl⟩

theorem exists_stretches (hless : Consistent less) (eager : Bool) (good n : Nat) (l : List α) :
    ∃ ss, stretches less eager good n l = some ss := by
  induction n generalizing l with
  | zero => exact ⟨[], rfl⟩
  | succ n ih =>
    cases l with
    | nil => exact ⟨[], rfl⟩
    | cons a l =>
      obtain ⟨⟨first, rest⟩, hfirst⟩ := exists_nextStretch hless eager good (a :: l)
      obtain ⟨others, hothers⟩ := ih rest
      exact ⟨first :: others, by simp [stretches, hfirst, hothers]⟩

variable (hsettle : ∀ l, ∃ out, settle l = some out)

include hsettle

theorem exists_settled (s : Stretch α) : ∃ out, s.settled settle = some out := by
  rw [Stretch.settled]
  split
  · exact ⟨_, rfl⟩
  · exact hsettle s.items

theorem exists_join (less : α → α → Bool) (room : Nat) (left right : Stretch α) :
    ∃ s, join less settle room left right = some s := by
  obtain ⟨l, hl⟩ := exists_settled hsettle left
  obtain ⟨r, hr⟩ := exists_settled hsettle right
  rw [join, hl, hr]
  split
  · exact ⟨_, rfl⟩
  · exact ⟨_, rfl⟩

theorem exists_collapse (less : α → α → Bool) (room depth : Nat) (current : Stretch α)
    (stack : List (Stretch α × Nat)) : ∃ s, collapse less settle room depth current stack = some s := by
  induction stack generalizing current with
  | nil => exact ⟨_, rfl⟩
  | cons e rest ih =>
    rw [collapse]
    split
    · obtain ⟨joined, hjoined⟩ := exists_join hsettle less room e.1 current
      rw [hjoined]
      exact ih joined
    · exact ⟨_, rfl⟩

theorem exists_mergeStretches (less : α → α → Bool) (room total scanned : Nat) (current : Stretch α)
    (stack : List (Stretch α × Nat)) (rest : List (Stretch α)) :
    ∃ s, mergeStretches less settle room total scanned current stack rest = some s := by
  induction rest generalizing scanned current stack with
  | nil =>
    obtain ⟨s, hs⟩ := exists_collapse hsettle less room 0 current stack
    exact ⟨s.1, by rw [mergeStretches, hs, Option.map_some]⟩
  | cons next rest ih =>
    rw [mergeStretches]
    obtain ⟨s, hs⟩ := exists_collapse hsettle less room
      (boundaryDepth total scanned (scanned + current.items.length)
        (scanned + current.items.length + next.items.length)) current stack
    dsimp only
    rw [hs]
    exact ih _ _ _

theorem exists_sortStretches (hless : Consistent less) (eager : Bool) (l : List α) :
    ∃ out, sortStretches less eager settle l = some out := by
  obtain ⟨ss, hss⟩ := exists_stretches hless eager (goodLength l.length) l.length l
  rw [sortStretches, hss]
  cases ss with
  | nil => exact ⟨[], rfl⟩
  | cons first rest =>
    obtain ⟨whole, hwhole⟩ := exists_mergeStretches hsettle less
      (max (l.length - l.length / 2) (min l.length 333333)) l.length 0 first [] rest
    obtain ⟨out, hout⟩ := exists_settled hsettle whole
    exact ⟨out, by simp [hwhole, hout]⟩

end

theorem exists_sortShort (hless : Consistent less) (l : List α) : ∃ out, sortShort less l = some out :=
  Option.ne_none_iff_exists'.mp (sortShort_ne_none hless l)

theorem exists_quicksort (hless : Consistent less) (limit : Nat) (bound : Option α) (l : List α) :
    ∃ out, quicksort less limit bound l = some out := by
  induction limit generalizing bound l with
  | zero =>
    rw [quicksort]
    split
    · exact exists_sortShort hless l
    · exact exists_sortStretches (exists_sortShort hless) hless true l
  | succ limit ih =>
    rw [quicksort]
    dsimp only
    split
    · exact exists_sortShort hless l
    · split
      · exact ⟨l, rfl⟩
      · split
        · obtain ⟨sorted, hsorted⟩ := ih none _
          exact ⟨_, congrArg (Option.map _) hsorted⟩
        · obtain ⟨right, hright⟩ := ih (some _) _
          obtain ⟨left, hleft⟩ := ih bound _
          exact ⟨left ++ right, by rw [hright, hleft]; rfl⟩

/-- **The sort does not give up** on a consistent comparison. -/
theorem exists_sort (hless : Consistent less) (l : List α) : ∃ out, sort less l = some out := by
  rw [sort]
  split
  · exact ⟨_, rfl⟩
  · exact exists_sortStretches (fun l => exists_quicksort hless _ none l) hless _ l

/-- The sort of a few elements does not give up on any comparison. -/
theorem exists_sort_of_length_le (less : α → α → Bool) {l : List α} (h : l.length ≤ 20) :
    ∃ out, sort less l = some out :=
  ⟨insertAll less [] l, if_pos h⟩

end GuardedQuery.AdaptiveSort
