import GuardedQuery.Order

/-!
# Bindings

A binding says what a row of an answer looks like: it lists the row's members and the field that each of
them is read from. A field that no member is read from never reaches an answer.

## Main definitions

* `Binding.project`: the row of a record.
* `Binding.narrow`: the part of a row that a query selects.
* `Binding.targetOf?`, `Binding.sourceOf?`: look-up in both directions.
-/

namespace GuardedQuery

/-- A member of a row. -/
structure BoundMember where
  /-- The name in the row. -/
  target : String
  /-- The field it is read from. -/
  source : String
  /-- Whether a join attaches the field. -/
  joined : Bool := false
deriving DecidableEq, Repr

/-- What a row of an answer looks like. -/
structure Binding where
  /-- The members, in order. -/
  members : List BoundMember := []
deriving DecidableEq, Repr

namespace Binding

/-- The binding of each field under its own name. -/
def ofFields (fields : List String) : Binding where
  members := fields.map fun f => { target := f, source := f }

/-- Adds a member. -/
def bind (b : Binding) (target source : String) (joined : Bool) : Binding where
  members := b.members ++ [{ target, source, joined }]

/-- The first member that is read from a field. -/
def targetOf? (b : Binding) (source : String) : Option String :=
  (b.members.find? fun m => m.source == source).map BoundMember.target

/-- The field that a member is read from. -/
def sourceOf? (b : Binding) (target : String) : Option String :=
  (b.members.find? fun m => m.target == target).map BoundMember.source

/-- The first name in a list that also stands before it. -/
def firstRepeated? (seen : List String) : List String → Option String
  | [] => none
  | name :: rest => if seen.contains name then some name else firstRepeated? (name :: seen) rest

/-- The first target that is bound twice. -/
def repeatedTarget? (b : Binding) : Option String := firstRepeated? [] (b.members.map BoundMember.target)

/-- The row of a record; what the record lacks is `null`. -/
def project (b : Binding) (record : Record) : Record :=
  Dict.ofList (b.members.map fun m => (m.target, Record.value record m.source))

/-- Whether a query's selection keeps a member of the row. Members that joins attach stay, since a join
selects its own fields. -/
def keeps (b : Binding) (select : List String) (target : String) : Bool :=
  match b.members.find? fun m => m.target == target with
  | some m => m.joined || select.contains m.source
  | none => false

/-- The part of a row that a query selects; an empty selection keeps everything. -/
def narrow (b : Binding) (select : List String) (row : Record) : Record :=
  if select.isEmpty then row else row.filter fun p => b.keeps select p.1

end Binding

end GuardedQuery
