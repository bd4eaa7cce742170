import GuardedQuery.AdaptiveSort
import Mathlib.Data.List.Basic

/-!
# Sorts of images

A sort looks at its elements through the comparison only. The sort of the images of elements under a function is the
image of their sort by the comparison of the images. So elements may be replaced by what the comparison needs of them,
or be marked with what it does not look at, such as the place where they stood or a property that they all have.

## Main definitions

* `AdaptiveSort.Stretch.map`: the image of a stretch.

## Main statements

* `AdaptiveSort.sort_map`: the sort of images.
-/

namespace GuardedQuery.AdaptiveSort

variable {α β : Type} (less : β → β → Bool) (f : α → β)

/-! ## Short parts -/

theorem insertLatest_map (a : α) (l : List α) :
    insertLatest less (f a) (l.map f) = (insertLatest (fun a b => less (f a) (f b)) a l).map f := by
  induction l with
  | nil => rfl
  | cons b rest ih =>
    simp only [List.map_cons, insertLatest, ih]
    split <;> rfl

theorem insertAll_map (sorted rest : List α) :
    insertAll less (sorted.map f) (rest.map f) = (insertAll (fun a b => less (f a) (f b)) sorted rest).map f := by
  have hfold : ∀ latest : List α, (rest.map f).foldl (fun latest a => insertLatest less a latest) (latest.map f) =
      (rest.foldl (fun latest a => insertLatest (fun a b => less (f a) (f b)) a latest) latest).map f := by
    induction rest with
    | nil => exact fun _ => rfl
    | cons a rest ih =>
      intro latest
      rw [List.map_cons, List.foldl_cons, List.foldl_cons, insertLatest_map, ih]
  rw [insertAll, insertAll, ← List.map_reverse, hfold, List.map_reverse]

theorem sortTwo_map (a b : α) :
    sortTwo less (f a) (f b) = (sortTwo (fun a b => less (f a) (f b)) a b).map f := by
  rw [sortTwo, sortTwo]
  split <;> rfl

theorem joinPairs_map (a b c d : α) :
    joinPairs less (f a) (f b) (f c) (f d) = (joinPairs (fun a b => less (f a) (f b)) a b c d).map f := by
  rw [joinPairs, joinPairs]
  cases less (f c) (f a) <;> cases less (f d) (f b) <;> simp [sortTwo_map]

theorem sortFour_map (a b c d : α) :
    sortFour less (f a) (f b) (f c) (f d) = (sortFour (fun a b => less (f a) (f b)) a b c d).map f := by
  rw [sortFour, sortFour]
  cases less (f b) (f a) <;> cases less (f d) (f c) <;> exact joinPairs_map less f _ _ _ _

theorem sortHalf_map (four : Bool) (half : List α) :
    sortHalf less four (half.map f) = (sortHalf (fun a b => less (f a) (f b)) four half).map f := by
  have hall : ∀ l : List α, insertAll less [] (l.map f) = (insertAll (fun a b => less (f a) (f b)) [] l).map f :=
    insertAll_map less f []
  match half with
  | a :: b :: c :: d :: rest =>
    simp only [List.map_cons, sortHalf]
    split
    · rw [sortFour_map, insertAll_map]
    · exact hall (a :: b :: c :: d :: rest)
  | [] => exact hall []
  | [a] => exact hall [a]
  | [a, b] => exact hall [a, b]
  | [a, b, c] => exact hall [a, b, c]

theorem takeMerged_map (n : Nat) (left right : List α) :
    takeMerged less n (left.map f) (right.map f) =
      ((takeMerged (fun a b => less (f a) (f b)) n left right).1.map f,
        (takeMerged (fun a b => less (f a) (f b)) n left right).2.1.map f,
        (takeMerged (fun a b => less (f a) (f b)) n left right).2.2.map f) := by
  induction n generalizing left right with
  | zero => simp [takeMerged]
  | succ n ih =>
    match left, right with
    | [], right => simp [takeMerged]
    | a :: left, [] => simp [takeMerged]
    | a :: left, b :: right =>
      have hleft := ih left (b :: right)
      have hright := ih (a :: left) right
      rw [List.map_cons] at hleft hright
      rw [List.map_cons, List.map_cons, takeMerged, takeMerged, hleft, hright]
      cases less (f b) (f a) <;> simp

theorem mergeHalves_map (left right : List α) :
    mergeHalves less (left.map f) (right.map f) =
      (mergeHalves (fun a b => less (f a) (f b)) left right).map (List.map f) := by
  have hfront := takeMerged_map less f left.length left right
  have hback := takeMerged_map (fun a b => less b a) f left.length right.reverse left.reverse
  simp only [mergeHalves, List.length_map, ← List.map_reverse, hfront, hback]
  split
  · simp
  · split
    · simp
    · rfl

theorem sortShort_map (part : List α) :
    sortShort less (part.map f) = (sortShort (fun a b => less (f a) (f b)) part).map (List.map f) := by
  simp only [sortShort, List.length_map, ← List.map_take, ← List.map_drop, sortHalf_map, mergeHalves_map]
  split <;> rfl

/-! ## Stretches -/

/-- The image of a stretch. -/
def Stretch.map (s : Stretch α) : Stretch β where
  items := s.items.map f
  sorted := s.sorted

theorem mergeRuns_map (left right : List α) :
    mergeRuns less (left.map f) (right.map f) = (mergeRuns (fun a b => less (f a) (f b)) left right).map f := by
  have hmerge : ∀ (precedes : β → β → Bool) (l r : List α), List.merge (l.map f) (r.map f) precedes =
      (List.merge l r fun a b => precedes (f a) (f b)).map f := by
    intro precedes l r
    rw [List.map_merge]
    exact fun _ _ _ _ => rfl
  simp only [mergeRuns, List.length_map, ← List.map_reverse, hmerge]
  split <;> rfl

theorem runTail_map (down : Bool) (a : α) (l : List α) :
    runTail less down (f a) (l.map f) = runTail (fun a b => less (f a) (f b)) down a l := by
  induction l generalizing a with
  | nil => rfl
  | cons b rest ih => rw [List.map_cons, runTail, runTail, ih]

theorem firstRun_map (l : List α) : firstRun less (l.map f) = firstRun (fun a b => less (f a) (f b)) l := by
  match l with
  | [] => rfl
  | [a] => rfl
  | a :: b :: rest =>
    have htail := runTail_map less f (less (f b) (f a)) a (b :: rest)
    rw [List.map_cons] at htail
    rw [List.map_cons, List.map_cons, firstRun, firstRun, htail]

theorem nextStretch_map (eager : Bool) (good : Nat) (l : List α) :
    nextStretch less eager good (l.map f) =
      (nextStretch (fun a b => less (f a) (f b)) eager good l).map (Prod.map (Stretch.map f) (List.map f)) := by
  simp only [nextStretch, firstRun_map, ← List.map_take, ← List.map_drop, sortShort_map]
  split
  · split <;> simp [Stretch.map]
  · split
    · simp [Function.comp_def, Stretch.map]
    · simp [Stretch.map]

theorem stretches_map (eager : Bool) (good n : Nat) (l : List α) :
    stretches less eager good n (l.map f) =
      (stretches (fun a b => less (f a) (f b)) eager good n l).map (List.map (Stretch.map f)) := by
  induction n generalizing l with
  | zero => rfl
  | succ n ih =>
    cases l with
    | nil => rfl
    | cons a l =>
      have hnext := nextStretch_map less f eager good (a :: l)
      rw [List.map_cons] at hnext
      rw [List.map_cons, stretches, stretches, hnext]
      cases nextStretch (fun a b => less (f a) (f b)) eager good (a :: l) with
      | none => rfl
      | some next =>
        have hothers := ih next.2
        simp only [Option.map_some, Prod.map, Option.bind_eq_bind, Option.bind_some, hothers]
        cases stretches (fun a b => less (f a) (f b)) eager good n next.2 <;> rfl

/-! ## Merging stretches -/

section

variable {settle : List β → Option (List β)} {settle' : List α → Option (List α)}
  (hsettle : ∀ l, settle (l.map f) = (settle' l).map (List.map f))

include hsettle

theorem settled_map (s : Stretch α) : (s.map f).settled settle = (s.settled settle').map (List.map f) := by
  rw [Stretch.settled, Stretch.settled]
  simp only [Stretch.map, hsettle]
  split <;> rfl

theorem join_map (room : Nat) (left right : Stretch α) :
    join less settle room (left.map f) (right.map f) =
      (join (fun a b => less (f a) (f b)) settle' room left right).map (Stretch.map f) := by
  rw [join, join, settled_map f hsettle, settled_map f hsettle]
  simp only [Stretch.map, List.length_map]
  split
  · simp [Stretch.map]
  · cases left.settled settle' with
    | none => rfl
    | some l =>
      cases right.settled settle' with
      | none => rfl
      | some r => simp [Stretch.map, mergeRuns_map]

theorem collapse_map (room depth : Nat) (current : Stretch α) (stack : List (Stretch α × Nat)) :
    collapse less settle room depth (current.map f) (stack.map (Prod.map (Stretch.map f) id)) =
      (collapse (fun a b => less (f a) (f b)) settle' room depth current stack).map
        (Prod.map (Stretch.map f) (List.map (Prod.map (Stretch.map f) id))) := by
  induction stack generalizing current with
  | nil => rfl
  | cons e rest ih =>
    obtain ⟨top, d⟩ := e
    rw [List.map_cons, Prod.map_apply, id_eq, collapse, collapse, join_map less f hsettle]
    split
    · cases join (fun a b => less (f a) (f b)) settle' room top current with
      | none => rfl
      | some joined => exact ih joined
    · rfl

theorem mergeStretches_map (room total scanned : Nat) (current : Stretch α) (stack : List (Stretch α × Nat))
    (rest : List (Stretch α)) :
    mergeStretches less settle room total scanned (current.map f) (stack.map (Prod.map (Stretch.map f) id))
        (rest.map (Stretch.map f)) =
      (mergeStretches (fun a b => less (f a) (f b)) settle' room total scanned current stack rest).map
        (Stretch.map f) := by
  induction rest generalizing scanned current stack with
  | nil =>
    rw [List.map_nil, mergeStretches, mergeStretches, collapse_map less f hsettle]
    cases collapse (fun a b => less (f a) (f b)) settle' room 0 current stack <;> rfl
  | cons next rest ih =>
    rw [List.map_cons, mergeStretches, mergeStretches]
    have hitems : ∀ s : Stretch α, (s.map f).items.length = s.items.length := fun s => by simp [Stretch.map]
    dsimp only
    rw [hitems, hitems, collapse_map less f hsettle]
    cases collapse (fun a b => less (f a) (f b)) settle' room
        (boundaryDepth total scanned (scanned + current.items.length)
          (scanned + current.items.length + next.items.length)) current stack with
    | none => rfl
    | some joined => exact ih _ next ((joined.1, _) :: joined.2)

theorem sortStretches_map (eager : Bool) (l : List α) :
    sortStretches less eager settle (l.map f) =
      (sortStretches (fun a b => less (f a) (f b)) eager settle' l).map (List.map f) := by
  rw [sortStretches, sortStretches, stretches_map, List.length_map]
  cases stretches (fun a b => less (f a) (f b)) eager (goodLength l.length) l.length l with
  | none => rfl
  | some ss =>
    cases ss with
    | nil => rfl
    | cons first rest =>
      have hwhole := mergeStretches_map less f hsettle (max (l.length - l.length / 2) (min l.length 333333))
        l.length 0 first [] rest
      rw [List.map_nil] at hwhole
      simp only [Option.map_some, Option.bind_eq_bind, Option.bind_some, List.map_cons, hwhole]
      cases mergeStretches (fun a b => less (f a) (f b)) settle'
          (max (l.length - l.length / 2) (min l.length 333333)) l.length 0 first [] rest with
      | none => rfl
      | some whole => exact settled_map f hsettle whole

end

/-! ## Parts without order -/

theorem lessAt_map (l : List α) (i j : Nat) :
    lessAt less (l.map f) i j = lessAt (fun a b => less (f a) (f b)) l i j := by
  rw [lessAt, lessAt, List.getElem?_map, List.getElem?_map]
  cases l[i]? with
  | none => rfl
  | some a => cases l[j]? <;> rfl

theorem pivotAt_map (l : List α) (levels start length : Nat) :
    pivotAt less (l.map f) levels start length = pivotAt (fun a b => less (f a) (f b)) l levels start length := by
  induction levels generalizing start length with
  | zero => rfl
  | succ levels ih => simp only [pivotAt, medianAt, lessAt_map, ih]

theorem pivotPlace_map (l : List α) : pivotPlace less (l.map f) = pivotPlace (fun a b => less (f a) (f b)) l := by
  rw [pivotPlace, pivotPlace, List.length_map, pivotAt_map]

theorem quicksort_map (limit : Nat) (bound : Option α) (l : List α) :
    quicksort less limit (bound.map f) (l.map f) =
      (quicksort (fun a b => less (f a) (f b)) limit bound l).map (List.map f) := by
  induction limit generalizing bound l with
  | zero =>
    rw [quicksort, quicksort, List.length_map, sortShort_map, sortStretches_map less f (sortShort_map less f)]
    split <;> rfl
  | succ limit ih =>
    rw [quicksort, quicksort, List.length_map, sortShort_map, pivotPlace_map]
    dsimp only
    rw [← List.map_drop, ← List.map_take]
    generalize pivotPlace (fun a b => less (f a) (f b)) l = place
    split
    · rfl
    · cases l.drop place with
      | nil => rfl
      | cons pivot behind =>
        have hwith : ∀ l₁ l₂ : List α, l₁.map f ++ f pivot :: l₂.map f = (l₁ ++ pivot :: l₂).map f := by simp
        have hnone : ∀ l, quicksort less limit none (l.map f) =
          (quicksort (fun a b => less (f a) (f b)) limit none l).map (List.map f) := ih none
        have hpivot : ∀ l, quicksort less limit (some (f pivot)) (l.map f) =
          (quicksort (fun a b => less (f a) (f b)) limit (some pivot) l).map (List.map f) := ih (some pivot)
        simp only [List.map_cons, List.filter_map, Function.comp_def, hwith, ← List.map_append, Option.any_map,
          List.isEmpty_map, hnone, hpivot, ih]
        split
        · simp [Function.comp_def]
        · generalize quicksort (fun a b => less (f a) (f b)) limit (some pivot) _ = right
          generalize quicksort (fun a b => less (f a) (f b)) limit bound _ = left
          cases right with
          | none => rfl
          | some right => cases left <;> simp

theorem sortPart_map (l : List α) :
    sortPart less (l.map f) = (sortPart (fun a b => less (f a) (f b)) l).map (List.map f) := by
  rw [sortPart, sortPart, List.length_map]
  exact quicksort_map less f _ none l

/-- **The sort of images** is the image of the sort by the comparison of the images. -/
theorem sort_map (l : List α) :
    sort less (l.map f) = (sort (fun a b => less (f a) (f b)) l).map (List.map f) := by
  rw [sort, sort, List.length_map, sortStretches_map less f (sortPart_map less f)]
  split
  · exact congrArg some (insertAll_map less f [] l)
  · rfl

end GuardedQuery.AdaptiveSort
