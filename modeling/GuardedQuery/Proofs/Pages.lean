import GuardedQuery.Proofs.Json.Numbers
import GuardedQuery.Proofs.Trail

/-!
# Pages of sorted rows

Following the cursors of the pages of sorted rows shows the rows in order. A page starts strictly after the last
row of the page before it, so the rows that this last row ties with are passed over. All rows are shown, whatever
the size of the pages, if and only if the keys tell all of them apart.

## Main definitions

* `Page.shown`: the rows that the pages of a size show, one after the other.
* `Page.Ahead`: the rows that lie ahead of a cursor.

## Main statements

* `SortKey.compareRecords_swap`: rows are compared the same way from both sides.
* `Page.shown_sublist`: no row is shown twice, and rows are shown in order.
* `Page.forall_shown_eq_iff`: pages of all sizes show all rows if and only if the rows are strictly increasing.
* `Page.Ahead.turn`: the rows that lie ahead of the next page.
-/

namespace GuardedQuery

/-! ## Comparisons from both sides -/

namespace Value

theorem compareInstantTexts_swap (s t : String) : compareInstantTexts t s = (compareInstantTexts s t).swap := by
  have htext : ∀ x y : String, Ord.compare y x = (Ord.compare x y).swap := fun _ _ => Std.OrientedCmp.eq_swap
  have hsecond : ∀ x y : Int, Ord.compare y x = (Ord.compare x y).swap := fun _ _ => Std.OrientedCmp.eq_swap
  have hnano : ∀ x y : Nat, Ord.compare y x = (Ord.compare x y).swap := fun _ _ => Std.OrientedCmp.eq_swap
  rw [compareInstantTexts, compareInstantTexts]
  cases Instant.parse? s with
  | none =>
    cases Instant.parse? t with
    | none => exact htext s t
    | some j => rfl
  | some i =>
    cases Instant.parse? t with
    | none => rfl
    | some j => simp only [Instant.compare, hsecond i.seconds, hnano i.nanos, Ordering.swap_then]

theorem compareNumbers_swap (a b : Value) : compareNumbers b a = (compareNumbers a b).swap := by
  have hexact : ∀ m n : Int, Ord.compare n m = (Ord.compare m n).swap := fun _ _ => Std.OrientedCmp.eq_swap
  have hrounded : ∀ x y : Binary64, y.compare x = (x.compare y).swap := fun x y => hexact x.key y.key
  rw [compareNumbers, compareNumbers]
  cases a.asInt64? with
  | none => cases b.asInt64? <;> exact hrounded _ _
  | some m =>
    cases b.asInt64? with
    | none => exact hrounded _ _
    | some n => exact hexact m n

/-- Values of any kind are compared the same way from both sides. -/
theorem compare_swap (a b : Value) : b.compare a = (a.compare b).swap := by
  have htruth : ∀ x y : Bool, Ord.compare y x = (Ord.compare x y).swap := by decide
  have htext : ∀ x y : String, Ord.compare y x = (Ord.compare x y).swap := fun _ _ => Std.OrientedCmp.eq_swap
  have hkinds : ∀ x y : Nat, Ord.compare y x = (Ord.compare x y).swap := fun _ _ => Std.OrientedCmp.eq_swap
  have hnumbers := compareNumbers_swap a b
  by_cases hkind : a.kindRank = b.kindRank
  · cases a with
    | null | array | object =>
      cases b <;> simp [kindRank] at hkind
      rfl
    | bool x =>
      cases b <;> simp [kindRank] at hkind
      exact htruth x _
    | string s =>
      cases b <;> simp [kindRank] at hkind
      exact htext s _
    | int | float => cases b <;> first | exact hnumbers | simp [kindRank] at hkind
  · have hleft : a.compare b = Ord.compare a.kindRank b.kindRank := by simp only [compare, if_neg hkind]
    have hright : b.compare a = Ord.compare b.kindRank a.kindRank := by
      simp only [compare, if_neg (Ne.symm hkind)]
    rw [hleft, hright, hkinds]

theorem compareTemporal_swap (a b : Value) : b.compareTemporal a = (a.compareTemporal b).swap := by
  cases a with
  | string s =>
    cases b with
    | string t => exact compareInstantTexts_swap s t
    | _ => exact compare_swap _ _
  | _ => cases b <;> exact compare_swap _ _

end Value

namespace SortKey

theorem compare_swap (k : SortKey) (a b : Value) : k.compare b a = (k.compare a b).swap := by
  rw [compare, compare, a.compare_swap, a.compareTemporal_swap, orient, orient]
  cases k.direction <;> cases k.temporal <;> rfl

/-- **Rows are compared the same way from both sides**, whatever values they hold. -/
theorem compareRecords_swap (keys : List SortKey) (a b : Record) :
    compareRecords keys b a = (compareRecords keys a b).swap := by
  induction keys with
  | nil => rfl
  | cons k rest ih => rw [compareRecords, compareRecords, k.compare_swap, ih, Ordering.swap_then]

theorem compareRecords_self (keys : List SortKey) (a : Record) : compareRecords keys a a = .eq := by
  have hswap := compareRecords_swap keys a a
  revert hswap
  cases compareRecords keys a a <;> decide

theorem gt_iff_lt {keys : List SortKey} {a b : Record} :
    compareRecords keys a b = .gt ↔ compareRecords keys b a = .lt := by
  rw [compareRecords_swap keys b a]
  cases compareRecords keys b a <;> decide

end SortKey

/-! ## What pages show -/

namespace Page

open SortKey (compareRecords Orders)

variable {α : Type} {keys : List SortKey} {record : α → Record} {size : Nat} {rows ahead : List α}

/-- Whether a row comes strictly after another one. -/
def follows (keys : List SortKey) (record : α → Record) (last r : α) : Bool :=
  compareRecords keys (record r) (record last) == .gt

theorem follows_iff {last r : α} :
    follows keys record last r = true ↔ compareRecords keys (record last) (record r) = .lt := by
  rw [follows, beq_iff_eq, SortKey.gt_iff_lt]

/-- A row comes after the cursor of another row if it comes after that row. -/
theorem isAfter_ofRecord (keys : List SortKey) (record : α → Record) (last r : α) :
    isAfter keys (some (Cursor.ofRecord keys (record last))) (record r) = follows keys record last r := by
  rw [isAfter, Option.all_some, compareRecords_ofRecord, follows]

/-- The rows that the pages of a size show, one after the other. Behind a page, the rows that its last row ties
with are passed over. -/
def shown (keys : List SortKey) (record : α → Record) (size : Nat) (rows : List α) : List α :=
  if h : 0 < size ∧ size < rows.length then
    have hlast : size - 1 < rows.length := by omega
    rows.take size ++ shown keys record size ((rows.drop size).filter (follows keys record rows[size - 1]))
  else rows
termination_by rows.length
decreasing_by
  have hfilter := List.length_filter_le (follows keys record rows[size - 1]) (rows.drop size)
  rw [List.length_drop] at hfilter
  omega

theorem shown_of_length_le (h : rows.length ≤ size) : shown keys record size rows = rows := by
  rw [shown, dif_neg (by omega)]

theorem shown_of_lt_length (hsize : 0 < size) (h : size < rows.length) :
    shown keys record size rows =
      rows.take size ++ shown keys record size ((rows.drop size).filter (follows keys record rows[size - 1])) := by
  rw [shown, dif_pos ⟨hsize, h⟩]

/-- **No row is shown twice**, and rows are shown in order. -/
theorem shown_sublist : (shown keys record size rows).Sublist rows := by
  fun_induction shown keys record size rows with
  | case1 rows h hlast ih =>
    have hlater := (ih.trans List.filter_sublist).append_left (rows.take size)
    rwa [List.take_append_drop] at hlater
  | case2 rows h => exact List.Sublist.refl rows

/-- Rows that are strictly increasing are all shown. -/
theorem shown_eq_of_pairwise (h : rows.Pairwise fun a b => compareRecords keys (record a) (record b) = .lt) :
    shown keys record size rows = rows := by
  fun_induction shown keys record size rows with
  | case1 rows hsize hlast ih =>
    have hparts := h
    rw [← List.take_append_drop size rows, List.pairwise_append] at hparts
    have hmem : rows[size - 1] ∈ rows.take size :=
      List.mem_take_iff_getElem.mpr ⟨size - 1, by omega, rfl⟩
    have hall : (rows.drop size).filter (follows keys record rows[size - 1]) = rows.drop size :=
      List.filter_eq_self.mpr fun r hr => follows_iff.mpr (hparts.2.2 _ hmem r hr)
    rw [hall] at ih ⊢
    rw [ih hparts.2.1, List.take_append_drop]
  | case2 rows hsize => rfl

/-- Pages of a single row show all rows only if the rows are strictly increasing. -/
theorem pairwise_of_shown_one (h : shown keys record 1 rows = rows) :
    rows.Pairwise fun a b => compareRecords keys (record a) (record b) = .lt := by
  induction rows with
  | nil => exact List.Pairwise.nil
  | cons a rest ih =>
    have hrest : shown keys record 1 (rest.filter (follows keys record a)) = rest := by
      rcases Nat.eq_zero_or_pos rest.length with hempty | hlength
      · rw [List.eq_nil_of_length_eq_zero hempty]
        exact shown_of_length_le (Nat.zero_le 1)
      · rw [shown_of_lt_length Nat.one_pos (by simpa using hlength)] at h
        simpa using h
    have hall : rest.filter (follows keys record a) = rest := by
      refine List.filter_sublist.eq_of_length_le ?_
      have hshown : (shown keys record 1 (rest.filter (follows keys record a))).Sublist
          (rest.filter (follows keys record a)) := shown_sublist
      rw [hrest] at hshown
      exact hshown.length_le
    rw [hall] at hrest
    exact List.pairwise_cons.mpr ⟨fun b hb => follows_iff.mp (List.filter_eq_self.mp hall b hb), ih hrest⟩

/-- **Pages of all sizes show all rows** if and only if the rows are strictly increasing. -/
theorem forall_shown_eq_iff :
    (∀ size, 0 < size → shown keys record size rows = rows) ↔
      rows.Pairwise fun a b => compareRecords keys (record a) (record b) = .lt :=
  ⟨fun h => pairwise_of_shown_one (h 1 Nat.one_pos), fun h _ _ => shown_eq_of_pairwise h⟩

/-- The rows that lie ahead of a cursor, among sorted rows. -/
structure Ahead (keys : List SortKey) (record : α → Record) (rows : List α) (cursor : Option String)
    (ahead : List α) : Prop where
  /-- They are some of the rows, in order. -/
  sublist : ahead.Sublist rows
  /-- The next page is a page of them. -/
  page : ∀ size, (ofRequest keys size cursor record rows).1 = ofRows keys size record ahead
  /-- What comes after one of them is one of them. -/
  closed : ∀ last ∈ ahead, rows.filter (follows keys record last) = ahead.filter (follows keys record last)

/-- At the start, all rows lie ahead. -/
theorem ahead_start (keys : List SortKey) (record : α → Record) (rows : List α) :
    Ahead keys record rows none rows where
  sublist := List.Sublist.refl rows
  page := fun size => by simp [ofRequest, resume, slice, isAfter]
  closed := fun _ _ => rfl

/-- **Behind a page**, the rows that its last row ties with are passed over. -/
theorem Ahead.turn {S : Record → Prop} {cursor : Option String} (h : Ahead keys record rows cursor ahead)
    (horders : Orders keys S) (hrows : ∀ r ∈ rows, S (record r))
    (hsorted : rows.Pairwise fun a b => compareRecords keys (record a) (record b) ≠ .gt)
    (htravels : ∀ r ∈ rows, ∀ k ∈ keys, (Record.value (record r) k.field).Travels)
    (hsize : 0 < size) (hlength : size < ahead.length) :
    Ahead keys record rows (some (Cursor.ofRecord keys (record ahead[size - 1])).encode)
      ((ahead.drop size).filter (follows keys record ahead[size - 1])) := by
  obtain ⟨last, hlast⟩ : ∃ last, last = ahead[size - 1] := ⟨_, rfl⟩
  have hmem : last ∈ ahead := hlast ▸ List.getElem_mem _
  have hS : ∀ r ∈ ahead, S (record r) := fun r hr => hrows r (h.sublist.subset hr)
  have hnone : ∀ r ∈ ahead.take size, compareRecords keys (record r) (record last) ≠ .gt := by
    intro r hr
    obtain ⟨i, hi, rfl⟩ := List.mem_take_iff_getElem.mp hr
    rcases Nat.lt_or_ge i (size - 1) with hbefore | hnot
    · rw [hlast]
      exact List.pairwise_iff_getElem.mp (hsorted.sublist h.sublist) i (size - 1) _ _ hbefore
    · have hindex : ahead[i] = last := by
        rw [hlast]
        congr 1
        omega
      rw [hindex, SortKey.compareRecords_self]
      decide
  -- Nothing on the page comes after a row that the page's last row does not follow.
  have hfilter : ∀ place ∈ ahead, compareRecords keys (record last) (record place) ≠ .gt →
      ahead.filter (follows keys record place) = (ahead.drop size).filter (follows keys record place) := by
    intro place hplace hle
    conv_lhs => rw [← List.take_append_drop size ahead, List.filter_append]
    rw [List.filter_eq_nil_iff.mpr, List.nil_append]
    intro r hr hfollows
    have hr' := List.mem_of_mem_take hr
    exact horders.trans _ _ _ (hS r hr') (hS last hmem) (hS place hplace) (hnone r hr) hle
      (by simpa [follows] using hfollows)
  have hself : compareRecords keys (record last) (record last) ≠ .gt := by
    rw [SortKey.compareRecords_self]
    decide
  rw [← hlast]
  refine ⟨(List.filter_sublist.trans (List.drop_sublist _ _)).trans h.sublist, ?_, ?_⟩
  · intro size'
    have hresume := resume_ofRecord (htravels last (h.sublist.subset hmem))
    simp only [ofRequest, hresume, slice, isAfter_ofRecord, h.closed last hmem, hfilter last hmem hself]
  · intro place hplace
    obtain ⟨hdrop, hlater⟩ := List.mem_filter.mp hplace
    have hplaceMem := List.mem_of_mem_drop hdrop
    have hlt := follows_iff.mp hlater
    rw [h.closed place hplaceMem, hfilter place hplaceMem (by rw [hlt]; decide), List.filter_filter]
    refine List.filter_congr ?_
    intro r hr
    have hr' := List.mem_of_mem_drop hr
    have himp : follows keys record place r = true → follows keys record last r = true := fun hfollows =>
      follows_iff.mpr (horders.lt_trans (hS last hmem) (hS place hplaceMem) (hS r hr') hlt
        (follows_iff.mp hfollows))
    cases hplaceFollows : follows keys record place r with
    | false => rfl
    | true => rw [himp hplaceFollows, Bool.and_self]

end Page

/-! ## What a cursor can carry -/

/-- A cursor can carry every well-formed value that is not too deep. -/
theorem Value.travels_of_wellFormed {v : Value} (hwell : v.WellFormed) (hdepth : v.depth ≤ 125) : v.Travels :=
  ⟨hwell, v.legible_of_wellFormed hwell, hdepth⟩

end GuardedQuery
