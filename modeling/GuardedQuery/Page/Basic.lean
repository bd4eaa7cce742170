import GuardedQuery.Page.Cursor
import GuardedQuery.Text.Blank

/-!
# Pages

A page is a run of sorted rows, with the cursor after its last row if more rows follow. The next page
holds the rows that come strictly after the cursor, so pages neither overlap nor skip a row as long as the
sort keys tell all rows apart. Rows added meanwhile do not shift the place.

## Main definitions

* `Page.resume`: the place that a request's cursor marks.
* `Page.slice`: the page after a place.
* `Page.ofRequest`: the page of a request; one with an unusable cursor starts at the first row.
-/

namespace GuardedQuery

/-- A run of rows. -/
structure Page (α : Type) where
  /-- The rows. -/
  rows : List α
  /-- The cursor after the last row, if more rows follow. -/
  next : Option String
deriving DecidableEq

namespace Page

variable {α : Type}

/-- The place that a request's cursor marks; there is none if the cursor is missing or blank. -/
def resume (keys : List SortKey) : Option String → Except CursorError (Option Cursor)
  | none => .ok none
  | some text => if Text.isBlankText text then .ok none else (Cursor.decodeFor keys text).map some

/-- Whether a row comes strictly after a place. -/
def isAfter (keys : List SortKey) (place : Option Cursor) (record : Record) : Bool :=
  place.all fun c => SortKey.compareRecords keys record c.values == .gt

/-- The page of the first rows; one row more than the page holds is looked at to see whether any follow. -/
def ofRows (keys : List SortKey) (size : Nat) (record : α → Record) (rows : List α) : Page α :=
  let ahead := rows.take (size + 1)
  let rows := ahead.take size
  { rows
    next :=
      if ahead.length > size then rows.getLast?.map fun r => (Cursor.ofRecord keys (record r)).encode
      else none }

/-- The page after a place. -/
def slice (keys : List SortKey) (size : Nat) (place : Option Cursor) (record : α → Record) (rows : List α) :
    Page α :=
  ofRows keys size record (rows.filter fun r => isAfter keys place (record r))

/-- The page of a request, and why its cursor could not be used. -/
def ofRequest (keys : List SortKey) (size : Nat) (cursor : Option String) (record : α → Record)
    (rows : List α) : Page α × Option CursorError :=
  match resume keys cursor with
  | .ok place => (slice keys size place record rows, none)
  | .error e => (slice keys size none record rows, some e)

end Page

end GuardedQuery
