import GuardedQuery.Json.Decode

/-!
# Responses

A response is a page of items with what is known about the page and about the work behind it. Items take
the form that the caller wants.

## Main definitions

* `Target`: a form of answer.
* `Response`, `Response.toValue`: a page of items, with its written form.
-/

namespace GuardedQuery

/-- A form of answer: how a projected row becomes an item. -/
structure Target (α : Type) where
  /-- The name of the form. -/
  label : String
  /-- The item of a row. -/
  materialize : Record → Except Fault α

/-- Items as plain JSON values. -/
def Target.value : Target Value where
  label := "<value>"
  materialize row := .ok (.object row)

/-- A page of items. -/
structure Response (α : Type) where
  /-- The items. -/
  items : List α
  /-- The greatest number of items on the page. -/
  size : Nat
  /-- The cursor of the next page, if there is one. -/
  nextCursor : Option String
  /-- The number of records that pass the filters, if it was wanted and could be found out. -/
  totalCount : Option Nat
  /-- The number of records looked at. -/
  rowsExamined : Nat
deriving DecidableEq

namespace Response

variable {α β : Type}

/-- Whether another page follows. -/
def hasMore (r : Response α) : Bool := r.nextCursor.isSome

/-- Changes the items. -/
def map (f : α → β) (r : Response α) : Response β := { r with items := r.items.map f }

/-- The written form of a response of values. No response comes from a cache. -/
def toValue (r : Response Value) : Value :=
  .ofMembers
    [("items", .array r.items),
     ("page", .ofMembers
       [("size", .ofNat r.size), ("nextCursor", .ofOption (r.nextCursor.map .string)),
        ("totalCount", .ofOption (r.totalCount.map .ofNat))]),
     ("meta", .ofMembers [("fromCache", .bool false), ("rowsExamined", .ofNat r.rowsExamined)])]

end Response

end GuardedQuery
