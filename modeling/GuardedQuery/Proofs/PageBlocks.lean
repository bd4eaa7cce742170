import GuardedQuery.Execution.Run
import GuardedQuery.Proofs.Pages

/-!
# Pages of changing size cut rows into blocks

A client may ask for every page with another size, and hands the cursor of a page on to the next request. If the
rows are strictly increasing, the pages are consecutive blocks of the rows. The keys need not order the rows any
further, since a cursor is only compared with rows before and behind the row that it was taken from.

The blocks are found out by a plain recursion on the rows that are left. The proof follows it, with the invariant
that a request with the cursor at hand is answered by a page of the rows that are left.

## Main definitions

* `Run.Walk`: the pages that a client gets one after the other.
* `Page.blocks`: rows cut into pages of changing size.
* `Page.Slices`: pages that are consecutive blocks of rows.

## Main statements

* `Page.slices_blocks`: rows are cut into consecutive blocks.
* `Run.walk_iff_of_starts`: the pages from a cursor on are the blocks of the rows that are left.
* `Run.walk_slices`: the pages of strictly increasing rows are consecutive blocks of them.
-/

namespace GuardedQuery

namespace Page

variable {α : Type} {keys : List SortKey} {record : α → Record} {sizes : ℕ → ℕ} {rows rest : List α}

/-! ## Blocks -/

/-- Rows cut into pages, the first of which has the first size, and so on. -/
def blocks (keys : List SortKey) (record : α → Record) (sizes : ℕ → ℕ) (rows : List α) : List (Page α) :=
  if 0 < sizes 0 ∧ sizes 0 < rows.length then
    ofRows keys (sizes 0) record rows :: blocks keys record (fun i => sizes (i + 1)) (rows.drop (sizes 0))
  else [ofRows keys (sizes 0) record rows]
termination_by rows.length
decreasing_by
  rw [List.length_drop]
  omega

/-- Pages that are consecutive blocks of rows. -/
structure Slices (sizes : ℕ → ℕ) (rows : List α) (pages : List (Page α)) : Prop where
  /-- There is a page. -/
  nonempty : pages ≠ []
  /-- One after the other, the pages hold the rows. -/
  rows_eq : pages.flatMap Page.rows = rows
  /-- No page holds more rows than were asked for. -/
  length_le : ∀ i page, pages[i]? = some page → page.rows.length ≤ sizes i
  /-- Every page but the last holds as many rows as were asked for. -/
  length_eq : ∀ i page, pages[i]? = some page → i + 1 < pages.length → page.rows.length = sizes i
  /-- The last page has no cursor, and all other pages have one. -/
  next_iff : ∀ i page, pages[i]? = some page → (page.next = none ↔ i + 1 = pages.length)
  /-- Only the first page may be empty. -/
  later : ∀ i page, pages[i]? = some page → 0 < i → page.rows ≠ []

/-- What holds of the pages by number holds of the first one, and of the later ones by number. -/
theorem forall_getElem?_cons_iff {P : ℕ → Page α → Prop} {page : Page α} {pages : List (Page α)} :
    (∀ i other, (page :: pages)[i]? = some other → P i other) ↔
      P 0 page ∧ ∀ i other, pages[i]? = some other → P (i + 1) other := by
  constructor
  · intro h
    exact ⟨h 0 page rfl, fun i other hother => h (i + 1) other hother⟩
  · rintro ⟨hfirst, hlater⟩ i other hother
    cases i with
    | zero =>
      obtain rfl := Option.some.inj hother
      exact hfirst
    | succ i => exact hlater i other hother

/-- A single page that holds all rows. -/
theorem Slices.single {page : Page α} (hrows : page.rows = rows) (hlength : rows.length ≤ sizes 0)
    (hnext : page.next = none) : Slices sizes rows [page] where
  nonempty := List.cons_ne_nil page []
  rows_eq := by simp [hrows]
  length_le := forall_getElem?_cons_iff.mpr ⟨by rwa [hrows], by simp⟩
  length_eq := forall_getElem?_cons_iff.mpr ⟨by simp, by simp⟩
  next_iff := forall_getElem?_cons_iff.mpr ⟨by simp [hnext], by simp⟩
  later := forall_getElem?_cons_iff.mpr ⟨by simp, by simp⟩

/-- A full page in front of the blocks of the rows behind it. -/
theorem Slices.cons {page next : Page α} {pages : List (Page α)} (hrows : page.rows ++ rest = rows)
    (hfull : page.rows.length = sizes 0) (hcursor : page.next ≠ none)
    (h : Slices (fun i => sizes (i + 1)) rest (next :: pages)) (hlater : next.rows ≠ []) :
    Slices sizes rows (page :: next :: pages) where
  nonempty := List.cons_ne_nil page _
  rows_eq := by rw [List.flatMap_cons, h.rows_eq, hrows]
  length_le := forall_getElem?_cons_iff.mpr ⟨hfull.le, h.length_le⟩
  length_eq := by
    refine forall_getElem?_cons_iff.mpr ⟨fun _ => hfull, ?_⟩
    intro i other hother hlength
    exact h.length_eq i other hother (Nat.lt_of_succ_lt_succ hlength)
  next_iff := by
    refine forall_getElem?_cons_iff.mpr ⟨by simp [hcursor], ?_⟩
    intro i other hother
    rw [h.next_iff i other hother]
    simp
  later := by
    have hmore := forall_getElem?_cons_iff.mp h.later
    refine forall_getElem?_cons_iff.mpr ⟨by simp, forall_getElem?_cons_iff.mpr ⟨fun _ => hlater, ?_⟩⟩
    intro i other hother _
    exact hmore.2 i other hother i.succ_pos

/-- The first of the blocks. -/
theorem exists_blocks_eq_cons (keys : List SortKey) (record : α → Record) (sizes : ℕ → ℕ) (rows : List α) :
    ∃ pages, blocks keys record sizes rows = ofRows keys (sizes 0) record rows :: pages := by
  rw [blocks]
  split
  · exact ⟨_, rfl⟩
  · exact ⟨[], rfl⟩

/-- **Rows are cut into consecutive blocks.** -/
theorem slices_blocks (hsizes : ∀ i, 0 < sizes i) (rows : List α) :
    Slices sizes rows (blocks keys record sizes rows) := by
  fun_induction blocks keys record sizes rows with
  | case1 sizes rows h ih =>
    obtain ⟨pages, hpages⟩ := exists_blocks_eq_cons keys record (fun i => sizes (i + 1)) (rows.drop (sizes 0))
    have hrest := ih fun i => hsizes (i + 1)
    rw [hpages] at hrest ⊢
    refine Slices.cons ?_ ?_ ?_ hrest ?_
    · rw [rows_ofRows, List.take_append_drop]
    · rw [rows_ofRows, List.length_take]
      omega
    · rw [next_ofRows, if_pos h.2, ne_eq, Option.map_eq_none_iff, List.getLast?_eq_none_iff, List.take_eq_nil_iff]
      rintro (hzero | hnil)
      · omega
      · simp [hnil] at h
    · rw [rows_ofRows, ne_eq, List.take_eq_nil_iff, List.drop_eq_nil_iff]
      rintro (hzero | hdrop)
      · exact absurd hzero (hsizes 1).ne'
      · omega
  | case2 sizes rows h =>
    have hlength : rows.length ≤ sizes 0 := by
      have := hsizes 0
      omega
    refine Slices.single ?_ hlength ?_
    · rw [rows_ofRows, List.take_of_length_le hlength]
    · rw [next_ofRows, if_neg (by omega)]

/-! ## Requests -/

/-- A page that leaves rows behind ends in a row, whose cursor it has. -/
theorem exists_next (keys : List SortKey) (record : α → Record) {size : ℕ} (hsize : 0 < size)
    (hlength : size < rest.length) :
    ∃ front last, rest = front ++ last :: rest.drop size ∧
      (ofRows keys size record rest).next = some (Cursor.ofRecord keys (record last)).encode := by
  have htake : rest.take size ≠ [] := by
    rw [ne_eq, List.take_eq_nil_iff]
    rintro (hzero | hnil)
    · omega
    · simp [hnil] at hlength
  refine ⟨(rest.take size).dropLast, (rest.take size).getLast htake, ?_, ?_⟩
  · rw [List.append_cons, List.dropLast_concat_getLast, List.take_append_drop]
  · rw [next_ofRows, if_pos hlength, List.getLast?_eq_some_getLast htake]
    rfl

/-- A request with the cursor is answered by a page of the rows that are left, and its cursor can be used. -/
def Starts (keys : List SortKey) (record : α → Record) (rows : List α) (cursor : Option String) (rest : List α) :
    Prop :=
  ∀ size, ofRequest keys size cursor record rows = (ofRows keys size record rest, none)

/-- Without a cursor, all rows are left. -/
theorem starts_none (keys : List SortKey) (record : α → Record) (rows : List α) :
    Starts keys record rows none rows := by
  intro size
  simp [ofRequest, resume, slice, isAfter]

/-- With the cursor of a row, the rows behind it are left. -/
theorem starts_ofRecord {front : List α} {last : α}
    (hstrict : (front ++ last :: rest).Pairwise fun a b => SortKey.compareRecords keys (record a) (record b) = .lt)
    (htravels : ∀ k ∈ keys, (Record.value (record last) k.field).Travels) :
    Starts keys record (front ++ last :: rest) (some (Cursor.ofRecord keys (record last)).encode) rest := by
  intro size
  rw [List.pairwise_append, List.pairwise_cons] at hstrict
  obtain ⟨-, ⟨hbehind, -⟩, hbefore⟩ := hstrict
  have hfront : front.filter (follows keys record last) = [] := by
    refine List.filter_eq_nil_iff.mpr ?_
    intro r hr hfollows
    have hlt := hbefore r hr last (List.mem_cons_self ..)
    rw [follows_iff, ← SortKey.gt_iff_lt, hlt] at hfollows
    cases hfollows
  have hlast : follows keys record last last = false := by
    rw [follows, SortKey.compareRecords_self]
    rfl
  have hrest : rest.filter (follows keys record last) = rest :=
    List.filter_eq_self.mpr fun r hr => follows_iff.mpr (hbehind r hr)
  simp only [ofRequest, resume_ofRecord htravels, slice, isAfter_ofRecord, List.filter_append, List.filter_cons,
    hfront, hlast, hrest, List.nil_append, Bool.false_eq_true, if_false]

end Page

namespace Run

open SortKey (compareRecords)
open Page (ofRows blocks Slices Starts)

variable {α : Type} {entity : String} {keys : List SortKey} {record : α → Record} {sizes : ℕ → ℕ}
  {rows rest : List α} {cursor : Option String} {p p' : Progress} {pages : List (Page α)}

/-! ## Walks -/

/-- The pages that a client gets from a cursor on, one after the other, until a page has no cursor. Each request
hands on the cursor of the page before it, and may ask for another size. -/
inductive Walk (entity : String) (keys : List SortKey) (record : α → Record) (rows : List α) :
    (ℕ → ℕ) → Option String → Progress → List (Page α) → Progress → Prop
  /-- No page follows. -/
  | last {sizes : ℕ → ℕ} {cursor : Option String} {p p' : Progress} {page : Page α}
      (hpage : Run.page entity keys (sizes 0) cursor record rows p = (.ok page, p')) (hnext : page.next = none) :
      Walk entity keys record rows sizes cursor p [page] p'
  /-- Another page follows. -/
  | next {sizes : ℕ → ℕ} {cursor : Option String} {p p' p'' : Progress} {page : Page α} {pages : List (Page α)}
      {text : String} (hpage : Run.page entity keys (sizes 0) cursor record rows p = (.ok page, p'))
      (hnext : page.next = some text)
      (hrest : Walk entity keys record rows (fun i => sizes (i + 1)) (some text) p' pages p'') :
      Walk entity keys record rows sizes cursor p (page :: pages) p''

/-- A usable cursor is answered without an incident. -/
theorem page_eq_ok_iff (h : Starts keys record rows cursor rest) {size : ℕ} {page : Page α} :
    Run.page entity keys size cursor record rows p = (.ok page, p') ↔ page = ofRows keys size record rest ∧ p' = p := by
  have hpage : Run.page entity keys size cursor record rows p = (.ok (ofRows keys size record rest), p) := by
    rw [Run.page, h size]
    rfl
  rw [hpage, Prod.mk.injEq, Except.ok.injEq]
  exact and_congr eq_comm eq_comm

/-- **The pages from a cursor on** are the blocks of the rows that are left, and nothing else comes to pass. -/
theorem walk_iff_of_starts (hsizes : ∀ i, 0 < sizes i)
    (hstrict : rows.Pairwise fun a b => compareRecords keys (record a) (record b) = .lt)
    (htravels : ∀ r ∈ rows, ∀ k ∈ keys, (Record.value (record r) k.field).Travels)
    (hsuffix : rest <:+ rows) (hstarts : Starts keys record rows cursor rest) :
    Walk entity keys record rows sizes cursor p pages p' ↔ pages = blocks keys record sizes rest ∧ p' = p := by
  fun_induction blocks keys record sizes rest generalizing cursor p pages p' with
  | case1 sizes rest h ih =>
    obtain ⟨front, last, hrest, hnext⟩ := Page.exists_next keys record h.1 h.2
    have hcursor : Starts keys record rows (some (Cursor.ofRecord keys (record last)).encode)
        (rest.drop (sizes 0)) := by
      obtain ⟨before, hrows⟩ := hsuffix
      have hsplit : rows = (before ++ front) ++ last :: rest.drop (sizes 0) := by
        rw [List.append_assoc, ← hrest, hrows]
      rw [hsplit] at hstrict htravels ⊢
      exact Page.starts_ofRecord hstrict (htravels last (by simp))
    have hlater : ∀ {p p' : Progress} {pages : List (Page α)}, Walk entity keys record rows (fun i => sizes (i + 1))
        (some (Cursor.ofRecord keys (record last)).encode) p pages p' ↔
          pages = blocks keys record (fun i => sizes (i + 1)) (rest.drop (sizes 0)) ∧ p' = p :=
      ih (fun i => hsizes (i + 1)) ((List.drop_suffix _ _).trans hsuffix) hcursor
    constructor
    · intro hwalk
      cases hwalk with
      | last hpage hnone =>
        obtain ⟨rfl, rfl⟩ := (page_eq_ok_iff hstarts).mp hpage
        rw [hnext] at hnone
        cases hnone
      | next hpage hsome hmore =>
        obtain ⟨rfl, rfl⟩ := (page_eq_ok_iff hstarts).mp hpage
        rw [hnext, Option.some_inj] at hsome
        subst hsome
        obtain ⟨rfl, rfl⟩ := hlater.mp hmore
        exact ⟨rfl, rfl⟩
    · rintro ⟨rfl, rfl⟩
      exact .next ((page_eq_ok_iff hstarts).mpr ⟨rfl, rfl⟩) hnext (hlater.mpr ⟨rfl, rfl⟩)
  | case2 sizes rest h =>
    have hnext : (ofRows keys (sizes 0) record rest).next = none := by
      have := hsizes 0
      rw [Page.next_ofRows, if_neg (by omega)]
    constructor
    · intro hwalk
      cases hwalk with
      | last hpage _ =>
        obtain ⟨rfl, rfl⟩ := (page_eq_ok_iff hstarts).mp hpage
        exact ⟨rfl, rfl⟩
      | next hpage hsome _ =>
        obtain ⟨rfl, rfl⟩ := (page_eq_ok_iff hstarts).mp hpage
        rw [hnext] at hsome
        cases hsome
    · rintro ⟨rfl, rfl⟩
      exact .last ((page_eq_ok_iff hstarts).mpr ⟨rfl, rfl⟩) hnext

/-- **The pages of strictly increasing rows are consecutive blocks of them**, whatever sizes are asked for. A client
that starts without a cursor gets these pages and no others, and no cursor is found to be unusable. -/
theorem walk_slices (keys : List SortKey) (record : α → Record)
    (hstrict : rows.Pairwise fun a b => compareRecords keys (record a) (record b) = .lt)
    (hwell : ∀ r ∈ rows, ∀ k ∈ keys, (Record.value (record r) k.field).WellFormed)
    (hdepth : ∀ r ∈ rows, ∀ k ∈ keys, (Record.value (record r) k.field).depth ≤ 125) (hsizes : ∀ i, 1 ≤ sizes i) :
    ∃ pages, Slices sizes rows pages ∧ ∀ entity p pages' p',
      Walk entity keys record rows sizes none p pages' p' ↔ pages' = pages ∧ p' = p := by
  refine ⟨blocks keys record sizes rows, Page.slices_blocks hsizes rows, ?_⟩
  intro entity p pages' p'
  have htravels : ∀ r ∈ rows, ∀ k ∈ keys, (Record.value (record r) k.field).Travels := by
    intro r hr k hk
    exact Value.travels_of_wellFormed (hwell r hr k hk) (hdepth r hr k hk)
  exact walk_iff_of_starts hsizes hstrict htravels (List.suffix_refl rows) (Page.starts_none keys record rows)

/-! ## A list of visits -/

/-- The keys of visits by town, the latest first. -/
def visitKeys : List SortKey := [{ field := "Town" }, { field := "At", direction := .desc, temporal := true }]

/-- Visits by town, the latest first. One has no town, and one has no time. -/
def visits : List Record :=
  [[("At", .string "2024-05-01T10:00:00Z")],
    [("At", .string "2024-05-01T10:00:00+02:00"), ("Town", .string "Aachen")],
    [("At", .string "2024-05-01T07:30:00Z"), ("Town", .string "Aachen")],
    [("Town", .string "Aachen")],
    [("At", .string "2024-05-01T09:00:00Z"), ("Town", .string "Bonn")]]

/-- The visits on a page of one, a page of two, and so on. -/
theorem walk_slices_visits : ∃ pages, Slices (fun i => i + 1) visits pages ∧ ∀ entity p pages' p',
    Walk entity visitKeys id visits (fun i => i + 1) none p pages' p' ↔ pages' = pages ∧ p' = p := by
  refine walk_slices visitKeys id (by decide +kernel) ?_ (by decide +kernel) fun i => Nat.le_add_left 1 i
  intro r hr k hk
  simp only [visits, visitKeys, List.mem_cons, List.not_mem_nil, or_false] at hr hk
  rcases hr with rfl | rfl | rfl | rfl | rfl <;> rcases hk with rfl | rfl <;> exact trivial

end Run

end GuardedQuery
