import GuardedQuery.Proofs.Cursor
import GuardedQuery.Proofs.Sorting

/-!
# Page after page while rows are added

A trail is what a client has seen of sorted rows after some pages, each of which starts at the cursor of the
page before it. Rows may be added between two pages, anywhere in the order. A trail is faithful if what it has
seen is strictly increasing, and no row that was there from the start lies behind the cursor unseen. Added rows
and further pages keep a trail faithful.

## Main definitions

* `SortKey.Separates`: the keys tell rows apart, and a cursor can carry their values.
* `Trail`, `Trail.turn`: what a client has seen, and the next page.
* `Trail.Faithful`: the invariant of trails.

## Main statements

* `Trail.Faithful.grow`: added rows keep a trail faithful.
* `Trail.Faithful.turn`: a further page keeps a trail faithful.
-/

namespace GuardedQuery

namespace Page

variable {α β : Type}

/-! ## Pages of rows -/

theorem rows_ofRows (keys : List SortKey) (size : Nat) (record : α → Record) (rows : List α) :
    (ofRows keys size record rows).rows = rows.take size := by
  simp [ofRows, List.take_take]

theorem next_ofRows (keys : List SortKey) (size : Nat) (record : α → Record) (rows : List α) :
    (ofRows keys size record rows).next =
      if size < rows.length then
        (rows.take size).getLast?.map fun r => (Cursor.ofRecord keys (record r)).encode
      else none := by
  have hahead : (rows.take (size + 1)).length > size ↔ size < rows.length := by
    rw [List.length_take]
    omega
  simp only [ofRows, hahead, List.take_take, Nat.min_eq_left (Nat.le_succ size)]

/-- The page of rows that carry records is the page of the records. -/
theorem ofRequest_map (keys : List SortKey) (size : Nat) (cursor : Option String) {f : β → α}
    {record : α → Record} {record' : β → Record} (hf : ∀ b, record (f b) = record' b) (rows : List β) :
    (ofRequest keys size cursor record (rows.map f)).1.rows =
        (ofRequest keys size cursor record' rows).1.rows.map f ∧
      (ofRequest keys size cursor record (rows.map f)).1.next =
        (ofRequest keys size cursor record' rows).1.next := by
  have hslice : ∀ place, (slice keys size place record (rows.map f)).rows =
        (slice keys size place record' rows).rows.map f ∧
      (slice keys size place record (rows.map f)).next = (slice keys size place record' rows).next := by
    intro place
    have hfilter : (rows.map f).filter (fun r => isAfter keys place (record r)) =
        (rows.filter fun r => isAfter keys place (record' r)).map f := by
      rw [List.filter_map]
      simp only [Function.comp_def, hf]
    simp only [slice, rows_ofRows, next_ofRows, hfilter, ← List.map_take, List.getLast?_map, List.length_map,
      Option.map_map, Function.comp_def, hf, and_self]
  unfold ofRequest
  cases resume keys cursor with
  | ok place => exact hslice place
  | error e => exact hslice none

end Page

namespace SortKey

/-- The keys tell all rows apart, and a cursor can carry the values of each of them. -/
structure Separates (keys : List SortKey) (rows : List Record) : Prop where
  /-- The keys order the rows. -/
  orders : Orders keys (· ∈ rows)
  /-- Rows that no key tells apart are one row. -/
  apart : ∀ a ∈ rows, ∀ b ∈ rows, compareRecords keys a b = .eq → a = b
  /-- No row is there twice. -/
  nodup : rows.Nodup
  /-- A cursor can carry the values. -/
  travels : ∀ r ∈ rows, ∀ k ∈ keys, (Record.value r k.field).Travels

/-- Rows that the keys tell apart are sorted into a strictly increasing list. -/
theorem Separates.pairwise_sort {keys : List SortKey} {rows : List Record} (h : Separates keys rows) :
    (sort keys rows).Pairwise fun a b => compareRecords keys a b = .lt :=
  pairwise_lt_sort h.orders (fun _ hr => hr) h.nodup h.apart

end SortKey

/-- What a client has seen of sorted rows after some pages. -/
structure Trail where
  /-- The rows, in the order in which they were seen. -/
  visited : List Record := []
  /-- The cursor of the last page. -/
  cursor : Option String := none
  /-- Whether the last page had no cursor. -/
  ended : Bool := false

namespace Trail

open SortKey (compareRecords Separates)

variable {keys : List SortKey} {start held held' : List Record} {t : Trail}

/-- The page that follows a trail. -/
def page (keys : List SortKey) (size : Nat) (held : List Record) (t : Trail) : Page Record :=
  (Page.ofRequest keys size t.cursor id (SortKey.sort keys held)).1

/-- The trail after the page that follows it. -/
def turn (keys : List SortKey) (size : Nat) (held : List Record) (t : Trail) : Trail where
  visited := t.visited ++ (t.page keys size held).rows
  cursor := (t.page keys size held).next
  ended := (t.page keys size held).next.isNone

/-- A row that comes strictly after all that a trail has seen. -/
def Beyond (keys : List SortKey) (visited : List Record) (r : Record) : Prop :=
  ∀ last, visited.getLast? = some last → compareRecords keys last r = .lt

instance (keys : List SortKey) (visited : List Record) (r : Record) : Decidable (Beyond keys visited r) :=
  inferInstanceAs (Decidable (∀ last ∈ visited.getLast?, compareRecords keys last r = .lt))

/-- What a trail has seen is strictly increasing, and no row that was there from the start lies behind the
cursor unseen. -/
structure Faithful (keys : List SortKey) (start held : List Record) (t : Trail) : Prop where
  /-- All rows from the start are still there. -/
  remaining : ∀ r ∈ start, r ∈ held
  /-- The rows were there. -/
  genuine : ∀ r ∈ t.visited, r ∈ held
  /-- The rows are strictly increasing. -/
  increasing : t.visited.Pairwise fun a b => compareRecords keys a b = .lt
  /-- The cursor marks the last row. -/
  place : t.ended = false →
    t.cursor = t.visited.getLast?.map fun r => (Cursor.ofRecord keys r).encode
  /-- What has not been seen is still to come. -/
  complete : ∀ r ∈ start, r ∈ t.visited ∨ t.ended = false ∧ Beyond keys t.visited r

/-- A trail without pages is faithful. -/
theorem faithful_start (keys : List SortKey) (start : List Record) : Faithful keys start start {} where
  remaining := fun _ hr => hr
  genuine := by simp
  increasing := List.Pairwise.nil
  place := fun _ => rfl
  complete := by simp [Beyond]

/-- Added rows keep a trail faithful. -/
theorem Faithful.grow (h : Faithful keys start held t) (hheld : ∀ r ∈ held, r ∈ held') :
    Faithful keys start held' t where
  remaining := fun r hr => hheld r (h.remaining r hr)
  genuine := fun r hr => hheld r (h.genuine r hr)
  increasing := h.increasing
  place := h.place
  complete := h.complete

/-- The last row of increasing rows is the greatest. -/
theorem eq_or_lt_getLast {rows : List Record} (h : rows.Pairwise fun a b => compareRecords keys a b = .lt)
    {last r : Record} (hlast : rows.getLast? = some last) (hr : r ∈ rows) :
    r = last ∨ compareRecords keys r last = .lt := by
  obtain ⟨init, rfl⟩ := List.getLast?_eq_some_iff.mp hlast
  rcases List.mem_append.mp hr with hr | hr
  · exact .inr ((List.pairwise_append.mp h).2.2 r hr last (by simp))
  · exact .inl (by simpa using hr)

/-- The rows that lie ahead of a trail, in order. -/
def ahead (keys : List SortKey) (held : List Record) (t : Trail) : List Record :=
  (SortKey.sort keys held).filter fun r => Beyond keys t.visited r

theorem mem_ahead {r : Record} : r ∈ t.ahead keys held ↔ r ∈ held ∧ Beyond keys t.visited r := by
  rw [ahead, List.mem_filter, SortKey.sort, SortKey.mem_sortBy, decide_eq_true_iff]

theorem pairwise_ahead (hkeys : Separates keys held) :
    (t.ahead keys held).Pairwise fun a b => compareRecords keys a b = .lt :=
  hkeys.pairwise_sort.filter _

/-- The next page of a faithful trail is the page of the rows that lie ahead. -/
theorem Faithful.page_eq (h : Faithful keys start held t) (hkeys : Separates keys held)
    (hopen : t.ended = false) (size : Nat) :
    t.page keys size held = Page.ofRows keys size id (t.ahead keys held) := by
  have hcursor := h.place hopen
  cases hlast : t.visited.getLast? with
  | none =>
    have hall : t.ahead keys held = SortKey.sort keys held := by
      refine List.filter_eq_self.mpr ?_
      simp [Beyond, hlast]
    rw [hlast] at hcursor
    rw [hall]
    simp [page, hcursor, Page.ofRequest, Page.resume, Page.slice, Page.isAfter]
  | some last =>
    have hmem : last ∈ held := h.genuine last (List.mem_of_getLast? hlast)
    have hresume := Page.resume_ofRecord (hkeys.travels last hmem)
    have hfilter : (SortKey.sort keys held).filter
          (fun r => Page.isAfter keys (some (Cursor.ofRecord keys last)) (id r)) = t.ahead keys held := by
      refine List.filter_congr ?_
      intro r hr
      have hr : r ∈ held := SortKey.mem_sortBy.mp hr
      have hafter := hkeys.orders.gt_iff_lt hr hmem
      simp [Page.isAfter, Page.compareRecords_ofRecord, Beyond, hlast, Bool.beq_eq_decide_eq, hafter]
    rw [hlast] at hcursor
    simp only [Option.map_some] at hcursor
    simp only [page, hcursor, Page.ofRequest, hresume, Page.slice, hfilter]

theorem Faithful.rows_page (h : Faithful keys start held t) (hkeys : Separates keys held)
    (hopen : t.ended = false) (size : Nat) :
    (t.page keys size held).rows = (t.ahead keys held).take size := by
  rw [h.page_eq hkeys hopen, Page.rows_ofRows]

theorem Faithful.next_page (h : Faithful keys start held t) (hkeys : Separates keys held)
    (hopen : t.ended = false) (size : Nat) :
    (t.page keys size held).next =
      if size < (t.ahead keys held).length then
        ((t.ahead keys held).take size).getLast?.map fun r => (Cursor.ofRecord keys r).encode
      else none := by
  rw [h.page_eq hkeys hopen, Page.next_ofRows]
  rfl

/-- A page that leaves rows behind is not empty, so what has been seen ends in its last row. -/
theorem exists_last {α : Type} {rest : List α} {size : Nat} (hsize : 0 < size) (hlength : size < rest.length)
    (visited : List α) :
    ∃ last, (rest.take size).getLast? = some last ∧ (visited ++ rest.take size).getLast? = some last := by
  have hpositive : 0 < (rest.take size).length := by
    rw [List.length_take]
    omega
  have hne : rest.take size ≠ [] := List.ne_nil_of_length_pos hpositive
  refine ⟨(rest.take size).getLast hne, List.getLast?_eq_some_getLast hne, ?_⟩
  rw [List.getLast?_append, List.getLast?_eq_some_getLast hne, Option.some_or]

/-- What is seen next comes strictly after all that has been seen. -/
theorem Faithful.lt_of_beyond (h : Faithful keys start held t) (hkeys : Separates keys held) {a b : Record}
    (ha : a ∈ t.visited) (hb : b ∈ held) (hbeyond : Beyond keys t.visited b) :
    compareRecords keys a b = .lt := by
  obtain ⟨last, hlast⟩ := Option.isSome_iff_exists.mp (List.getLast?_isSome.mpr (List.ne_nil_of_mem ha))
  have hmem : last ∈ held := h.genuine last (List.mem_of_getLast? hlast)
  rcases eq_or_lt_getLast h.increasing hlast ha with rfl | hlt
  · exact hbeyond _ hlast
  · exact hkeys.orders.lt_trans (h.genuine a ha) hmem hb hlt (hbeyond last hlast)

/-- A faithful trail has seen no row twice. -/
theorem Faithful.nodup (h : Faithful keys start held t) (hkeys : Separates keys held) : t.visited.Nodup := by
  refine h.increasing.imp_of_mem ?_
  intro a b ha hb hlt heq
  have hgt := (hkeys.orders.gt_iff_lt (h.genuine b hb) (h.genuine a ha)).mpr hlt
  rw [heq] at hlt hgt
  rw [hlt] at hgt
  exact absurd hgt (by decide)

/-- A row ahead that a page leaves behind lies beyond the last row of the page. -/
theorem Faithful.beyond_turn (h : Faithful keys start held t) (hkeys : Separates keys held)
    (hopen : t.ended = false) {size : Nat} (hsize : 0 < size) {r : Record}
    (hr : r ∈ (t.ahead keys held).drop size) :
    (t.turn keys size held).ended = false ∧ Beyond keys (t.turn keys size held).visited r := by
  have hlength : size < (t.ahead keys held).length := by
    have hpositive := List.length_pos_of_mem hr
    rw [List.length_drop] at hpositive
    omega
  obtain ⟨last, htake, hvisited⟩ := exists_last hsize hlength t.visited
  constructor
  · simp [Trail.turn, h.next_page hkeys hopen, hlength, htake]
  · intro last' hlast'
    rw [Trail.turn, h.rows_page hkeys hopen, hvisited, Option.some.injEq] at hlast'
    have hsorted := pairwise_ahead (t := t) hkeys
    rw [← List.take_append_drop size (t.ahead keys held), List.pairwise_append] at hsorted
    rw [← hlast']
    exact hsorted.2.2 last (List.mem_of_getLast? htake) r hr

/-- **A further page keeps a trail faithful.** -/
theorem Faithful.turn (h : Faithful keys start held t) (hkeys : Separates keys held) (hopen : t.ended = false)
    {size : Nat} (hsize : 0 < size) : Faithful keys start held (t.turn keys size held) := by
  have hrows := h.rows_page hkeys hopen size
  have hnext := h.next_page hkeys hopen size
  have htaken : ∀ r ∈ (t.ahead keys held).take size, r ∈ held ∧ Beyond keys t.visited r :=
    fun r hr => mem_ahead.mp (List.mem_of_mem_take hr)
  refine ⟨h.remaining, ?_, ?_, ?_, ?_⟩
  · intro r hr
    rw [Trail.turn, hrows] at hr
    rcases List.mem_append.mp hr with hr | hr
    · exact h.genuine r hr
    · exact (htaken r hr).1
  · rw [Trail.turn, hrows, List.pairwise_append]
    refine ⟨h.increasing, (pairwise_ahead hkeys).sublist (List.take_sublist size _), ?_⟩
    intro a ha b hb
    exact h.lt_of_beyond hkeys ha (htaken b hb).1 (htaken b hb).2
  · intro hopen'
    simp only [Trail.turn, hrows, hnext] at hopen' ⊢
    by_cases hlength : size < (t.ahead keys held).length
    · obtain ⟨last, htake, hvisited⟩ := exists_last hsize hlength t.visited
      simp [hlength, htake, hvisited]
    · simp [hlength] at hopen'
  · intro r hr
    rcases h.complete r hr with hvisited | ⟨_, hbeyond⟩
    · exact .inl (List.mem_append_left _ hvisited)
    · have hahead : r ∈ t.ahead keys held := mem_ahead.mpr ⟨h.remaining r hr, hbeyond⟩
      rw [← List.take_append_drop size (t.ahead keys held), List.mem_append, ← hrows] at hahead
      rcases hahead with htake | hdrop
      · exact .inl (List.mem_append_right _ htake)
      · exact .inr (h.beyond_turn hkeys hopen hsize hdrop)

/-- A faithful trail that has ended has seen every row that was there from the start once. -/
theorem Faithful.count_eq_one (h : Faithful keys start held t) (hkeys : Separates keys held)
    (hended : t.ended = true) {r : Record} (hr : r ∈ start) : t.visited.count r = 1 := by
  have hvisited : r ∈ t.visited := by
    rcases h.complete r hr with hvisited | ⟨hopen, _⟩
    · exact hvisited
    · rw [hended] at hopen
      exact absurd hopen (by decide)
  exact List.count_eq_one_of_mem (h.nodup hkeys) hvisited

end Trail

end GuardedQuery
