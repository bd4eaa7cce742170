/-!
# A stable sort that makes use of order

A list is sorted by a comparison that tells whether one element comes before another. Short lists are sorted by
insertion. Longer ones are cut into stretches that are in order already, or are put into order, and the stretches are
merged in pairs of similar size; long parts without any order are partitioned by pivots first.

The two halves of a short part are merged from both ends at once. If the comparison contradicts itself, the two ends
may not meet, and then the sort gives up. A contradiction that is not met in this way shows in the order only.

## Main definitions

* `AdaptiveSort.insertLatest`, `AdaptiveSort.insertAll`: insertion.
* `AdaptiveSort.mergeHalves`, `AdaptiveSort.sortShort`: short parts, and the merge from both ends.
* `AdaptiveSort.Stretch`, `AdaptiveSort.mergeStretches`: stretches, and the order in which they are merged.
* `AdaptiveSort.quicksort`: long parts without any order.
* `AdaptiveSort.sort`: the sort of a list, unless it gives up.
-/

namespace GuardedQuery.AdaptiveSort

variable {α : Type} (less : α → α → Bool)

/-! ## Insertion -/

/-- Puts an element into a list that is sorted with the last element first: behind all elements that it precedes. -/
def insertLatest (a : α) : List α → List α
  | [] => [a]
  | b :: rest => if less a b then b :: insertLatest a rest else a :: b :: rest

/-- Puts elements into a sorted list one after the other. -/
def insertAll (sorted rest : List α) : List α :=
  (rest.foldl (fun latest a => insertLatest less a latest) sorted.reverse).reverse

/-! ## Short parts -/

/-- Two elements in order. -/
def sortTwo (a b : α) : List α := if less b a then [b, a] else [a, b]

/-- Four elements of which the first two and the last two are in order: the ends are found first. -/
def joinPairs (a b c d : α) : List α :=
  match less c a, less d b with
  | false, false => a :: sortTwo less b c ++ [d]
  | false, true => a :: sortTwo less c d ++ [b]
  | true, false => c :: sortTwo less a b ++ [d]
  | true, true => c :: sortTwo less a d ++ [b]

/-- Four elements in order, by five comparisons. -/
def sortFour (a b c d : α) : List α :=
  match less b a, less d c with
  | false, false => joinPairs less a b c d
  | false, true => joinPairs less a b d c
  | true, false => joinPairs less b a c d
  | true, true => joinPairs less b a d c

/-- A half of a short part. If it is long enough, its first four elements are sorted at once. -/
def sortHalf (four : Bool) : List α → List α
  | a :: b :: c :: d :: rest =>
    if four then insertAll less (sortFour less a b c d) rest else insertAll less [] (a :: b :: c :: d :: rest)
  | half => insertAll less [] half

/-- The first elements of the merge of two lists, and what is left of either. -/
def takeMerged : Nat → List α → List α → List α × List α × List α
  | n + 1, a :: left, b :: right =>
    if less b a then
      let (front, rest) := takeMerged n (a :: left) right
      (b :: front, rest)
    else
      let (front, rest) := takeMerged n left (b :: right)
      (a :: front, rest)
  | _, left, right => ([], left, right)

/-- The merge of two sorted halves, of which the second one may have an element more. As many elements as the first
half has are taken from the front, and as many from the back. It gives up unless both together have taken every element
once, except the one in the middle. -/
def mergeHalves (left right : List α) : Option (List α) :=
  let half := left.length
  let (front, left', right') := takeMerged less half left right
  let (back, _, left'') := takeMerged (fun a b => less b a) half right.reverse left.reverse
  if left'.length + left''.length = half then
    some (front ++ right'.take (right.length - half) ++ back.reverse)
  else if left'.length + left''.length = half + 1 ∧ half < right.length then
    some (front ++ left'.take 1 ++ back.reverse)
  else none

/-- Sorts a short part, by halves. -/
def sortShort (part : List α) : Option (List α) :=
  let half := part.length / 2
  let four := decide (8 ≤ part.length)
  if part.length < 2 then some part
  else mergeHalves less (sortHalf less four (part.take half)) (sortHalf less four (part.drop half))

/-- No part longer than this is short. -/
def shortLength : Nat := 32

/-! ## Stretches -/

/-- The merge of two sorted lists. It begins at the end of the shorter one. -/
def mergeRuns (left right : List α) : List α :=
  if left.length ≤ right.length then List.merge left right fun a b => !less b a
  else (List.merge right.reverse left.reverse fun a b => !less a b).reverse

/-- The number of elements that go on in the direction in which the list has come to an element. -/
def runTail (down : Bool) : α → List α → Nat
  | _, [] => 0
  | a, b :: rest => if less b a == down then runTail down b rest + 1 else 0

/-- The length of the first run of a list, and whether it goes down. -/
def firstRun : List α → Nat × Bool
  | a :: b :: rest => (runTail less (less b a) a (b :: rest) + 1, less b a)
  | l => (l.length, false)

/-- A stretch of a list, which may be sorted already. -/
structure Stretch (α : Type) where
  /-- The elements. -/
  items : List α
  /-- Whether they are sorted. -/
  sorted : Bool

/-- The elements of a stretch in order, given a way to sort. -/
def Stretch.settled (settle : List α → Option (List α)) (s : Stretch α) : Option (List α) :=
  if s.sorted then some s.items else settle s.items

/-- The first stretch of a list, and the rest. It is the first run if that is good enough. Otherwise it is a short part,
which an eager sort sorts, or a part that is left as it is. -/
def nextStretch (eager : Bool) (good : Nat) (l : List α) : Option (Stretch α × List α) :=
  let (length, down) := firstRun less l
  if good ≤ length then
    some ({ items := if down then (l.take length).reverse else l.take length, sorted := true }, l.drop length)
  else if eager then
    (sortShort less (l.take shortLength)).map fun items => ({ items, sorted := true }, l.drop shortLength)
  else some ({ items := l.take good, sorted := false }, l.drop good)

/-- Cuts a list into stretches, at most as many as are asked for. -/
def stretches (eager : Bool) (good : Nat) : Nat → List α → Option (List (Stretch α))
  | n + 1, a :: l => do
    let (first, rest) ← nextStretch less eager good (a :: l)
    let others ← stretches eager good n rest
    return first :: others
  | _, _ => some []

/-- Joins two neighbours. Stretches that are not sorted yet stay so while there is room for them. -/
def join (settle : List α → Option (List α)) (room : Nat) (left right : Stretch α) : Option (Stretch α) :=
  if left.items.length + right.items.length ≤ room ∧ left.sorted = false ∧ right.sorted = false then
    some { items := left.items ++ right.items, sorted := false }
  else do
    let l ← left.settled settle
    let r ← right.settled settle
    return { items := mergeRuns less l r, sorted := true }

/-- Joins a stretch with its neighbours on the left, as long as these have the given depth. -/
def collapse (settle : List α → Option (List α)) (room depth : Nat) (current : Stretch α) :
    List (Stretch α × Nat) → Option (Stretch α × List (Stretch α × Nat))
  | [] => some (current, [])
  | (top, d) :: rest =>
    if depth ≤ d then do
      let joined ← join less settle room top current
      collapse settle room depth joined rest
    else some (current, (top, d) :: rest)

/-- The depth of the boundary between two neighbours in the tree of merges: the leading binary digits that the middles
of the two have in common, as fractions of the whole. -/
def boundaryDepth (total left middle right : Nat) : Nat :=
  let scale := ((1 <<< 62) + total - 1) / total
  let apart := (scale * (left + middle)) ^^^ (scale * (middle + right))
  if apart = 0 then 64 else 63 - apart.log2

/-- Merges stretches. A boundary is worked off before boundaries of less depth. The stretches before the current one are
kept on a stack, each with the depth of the boundary behind it. -/
def mergeStretches (settle : List α → Option (List α)) (room total : Nat) :
    Nat → Stretch α → List (Stretch α × Nat) → List (Stretch α) → Option (Stretch α)
  | _, current, stack, [] => (collapse less settle room 0 current stack).map Prod.fst
  | scanned, current, stack, next :: rest => do
    let middle := scanned + current.items.length
    let depth := boundaryDepth total scanned middle (middle + next.items.length)
    let (joined, stack) ← collapse less settle room depth current stack
    mergeStretches settle room total middle next ((joined, depth) :: stack) rest

/-- A number near the square root. -/
def nearRoot (n : Nat) : Nat :=
  let shift := (1 + n.log2) / 2
  ((1 <<< shift) + (n >>> shift)) / 2

/-- The length from which on a run of a list with so many elements is good enough. -/
def goodLength (total : Nat) : Nat :=
  if total ≤ 4096 then min (total - total / 2) 64 else nearRoot total

/-- Sorts a list by stretches. -/
def sortStretches (eager : Bool) (settle : List α → Option (List α)) (l : List α) : Option (List α) := do
  match ← stretches less eager (goodLength l.length) l.length l with
  | [] => return []
  | first :: rest =>
    let room := max (l.length - l.length / 2) (min l.length 333333)
    let whole ← mergeStretches less settle room l.length 0 first [] rest
    whole.settled settle

/-! ## Parts without order -/

/-- Compares the elements at two places. -/
def lessAt (l : List α) (i j : Nat) : Bool :=
  match l[i]?, l[j]? with
  | some a, some b => less a b
  | _, _ => false

/-- The place of the median of three elements. -/
def medianAt (l : List α) (i j k : Nat) : Nat :=
  if lessAt less l i j == lessAt less l i k then
    if lessAt less l j k == lessAt less l i j then j else k
  else i

/-- The place of a median of medians of three, over a part of a list. -/
def pivotAt (l : List α) : Nat → Nat → Nat → Nat
  | 0, start, _ => start
  | levels + 1, start, length =>
    let eighth := length / 8
    medianAt less l (pivotAt l levels start eighth) (pivotAt l levels (start + eighth * 4) eighth)
      (pivotAt l levels (start + eighth * 7) eighth)

/-- The place of the pivot of a list. -/
def pivotPlace (l : List α) : Nat := pivotAt less l (l.length.log2 / 3) 0 l.length

/-- Partitions a list by pivots. No element comes before the given bound. Elements that tie with such a pivot are set
apart at once, and so are those that tie with a pivot that no other element precedes. The eager sort by stretches takes
over after too many partitions. -/
def quicksort : Nat → Option α → List α → Option (List α)
  | 0, _, l => if l.length ≤ shortLength then sortShort less l else sortStretches less true (sortShort less) l
  | limit + 1, bound, l =>
    if l.length ≤ shortLength then sortShort less l
    else
      let place := pivotPlace less l
      match l.drop place with
      | [] => some l
      | pivot :: behind =>
        let before := l.take place
        let smaller := before.filter (fun a => less a pivot) ++ behind.filter fun a => less a pivot
        if bound.any (fun a => !less a pivot) || smaller.isEmpty then
          let tied := before.filter (fun a => !less pivot a) ++ pivot :: behind.filter fun a => !less pivot a
          let larger := before.filter (fun a => less pivot a) ++ behind.filter fun a => less pivot a
          (quicksort limit none larger).map fun sorted => tied ++ sorted
        else do
          let others := before.filter (fun a => !less a pivot) ++ pivot :: behind.filter fun a => !less a pivot
          let right ← quicksort limit (some pivot) others
          let left ← quicksort limit bound smaller
          return left ++ right

/-- Sorts a part without order. -/
def sortPart (l : List α) : Option (List α) := quicksort less (2 * (l.length ||| 1).log2) none l

/-! ## Lists -/

/-- Sorts a list, unless the comparison contradicts itself and the sort has to give up. -/
def sort (l : List α) : Option (List α) :=
  if l.length ≤ 20 then some (insertAll less [] l)
  else sortStretches less (decide (l.length ≤ 2 * shortLength)) (sortPart less) l

end GuardedQuery.AdaptiveSort
