/-!
# Sorted dictionaries

A `Dict α` associates names with values and is kept in increasing order of its names, which is the order
in which documents write their members. Equal contents therefore have equal representations.

## Main definitions

* `Dict.get?`, `Dict.insert`: look-up and update.
* `Dict.ofList`: a dictionary from pairs in any order, a later pair winning over an earlier one.
* `Dict.Sorted`: the order invariant that `insert` and `ofList` establish.
-/

namespace GuardedQuery

/-- Values by name, in increasing order of the names. -/
abbrev Dict (α : Type) := List (String × α)

namespace Dict

variable {α β : Type}

/-- The names are strictly increasing. -/
def Sorted (d : Dict α) : Prop := List.Pairwise (fun a b => a.1 < b.1) d

/-- The value of a name. -/
def get? : Dict α → String → Option α
  | [], _ => none
  | (k, v) :: rest, name => if k = name then some v else get? rest name

/-- Whether a name has a value. -/
def contains (d : Dict α) (name : String) : Bool := (get? d name).isSome

/-- The names, in increasing order. -/
def names (d : Dict α) : List String := List.map Prod.fst d

/-- Gives a name its value, in place of the one it had. -/
def insert : Dict α → String → α → Dict α
  | [], name, value => [(name, value)]
  | (k, v) :: rest, name, value =>
    if name < k then (name, value) :: (k, v) :: rest
    else if name = k then (name, value) :: rest
    else (k, v) :: insert rest name value

/-- A dictionary from pairs in any order; of two values for one name the later one stays. -/
def ofList (pairs : List (String × α)) : Dict α :=
  pairs.foldl (fun d p => insert d p.1 p.2) []

/-- Applies a function to every value. -/
def mapValues (f : α → β) (d : Dict α) : Dict β := List.map (fun p => (p.1, f p.2)) d

/-- Adds the names of a list to a sorted list of names without repetitions. -/
def nameSet (names : List String) : List String :=
  (ofList (names.map fun n => (n, ()))).map Prod.fst

end Dict

end GuardedQuery
