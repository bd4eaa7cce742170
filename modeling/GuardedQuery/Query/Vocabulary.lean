import GuardedQuery.Text.Blank

/-!
# Vocabularies of the query language

Queries spell operators, logic, directions, operations, aggregates and join kinds as texts. Each of them
is read without surrounding white space and without regard to the case of ASCII letters.
-/

namespace GuardedQuery

/-- The operators of a filter condition. -/
inductive FilterOperator where
  /-- Equal. -/
  | eq
  /-- Not equal. -/
  | ne
  /-- Less. -/
  | lt
  /-- Less or equal. -/
  | lte
  /-- Greater. -/
  | gt
  /-- Greater or equal. -/
  | gte
  /-- The text contains the operand. -/
  | contains
  /-- The text starts with the operand. -/
  | startsWith
  /-- The text ends with the operand. -/
  | endsWith
  /-- Equal to an element of the operand. -/
  | isIn
  /-- No value. -/
  | isNull
  /-- Some value. -/
  | isNotNull
  /-- Equal texts up to case. -/
  | equalsIgnoreCase
deriving DecidableEq, Repr

namespace FilterOperator

/-- All operators, in canonical order. -/
def all : List FilterOperator :=
  [eq, ne, lt, lte, gt, gte, contains, startsWith, endsWith, isIn, isNull, isNotNull, equalsIgnoreCase]

/-- The symbol of an operator. -/
def symbol : FilterOperator → String
  | eq => "eq"
  | ne => "ne"
  | lt => "lt"
  | lte => "lte"
  | gt => "gt"
  | gte => "gte"
  | contains => "contains"
  | startsWith => "startswith"
  | endsWith => "endswith"
  | isIn => "in"
  | isNull => "isnull"
  | isNotNull => "isnotnull"
  | equalsIgnoreCase => "equalsignorecase"

/-- The operator whose symbol is exactly the given text. -/
def ofSymbol? (s : String) : Option FilterOperator := all.find? fun op => op.symbol == s

/-- Reads an operator. -/
def parse? (s : String) : Option FilterOperator := ofSymbol? (Text.symbol s)

/-- Whether the operator takes no operand. -/
def forbidsValue (op : FilterOperator) : Bool := op == isNull || op == isNotNull

/-- Whether the operator needs an operand. -/
def requiresValue (op : FilterOperator) : Bool := !op.forbidsValue

/-- Whether the operator applies to texts only. -/
def isText (op : FilterOperator) : Bool :=
  op == contains || op == startsWith || op == endsWith || op == equalsIgnoreCase

end FilterOperator

/-- How the conditions of a group combine. -/
inductive Logic where
  /-- All conditions hold. -/
  | and
  /-- Some condition holds. -/
  | or
deriving DecidableEq, Repr

namespace Logic

/-- The symbol of the logic. -/
def symbol : Logic → String
  | and => "and"
  | or => "or"

/-- Reads the logic of a group; a group without one, or with a blank one, is a conjunction. -/
def parse? : Option String → Option Logic
  | none => some and
  | some s =>
    let s := Text.symbol s
    if s = "" ∨ s = "and" then some and else if s = "or" then some or else none

end Logic

/-- The direction of a sort key. -/
inductive Direction where
  /-- Smaller values first. -/
  | asc
  /-- Greater values first. -/
  | desc
deriving DecidableEq, Repr

namespace Direction

/-- The symbol of a direction. -/
def symbol : Direction → String
  | asc => "asc"
  | desc => "desc"

/-- Reads a direction. -/
def parse? (s : String) : Option Direction :=
  let s := Text.symbol s
  if s = "asc" then some asc else if s = "desc" then some desc else none

/-- The opposite direction. -/
def flip : Direction → Direction
  | asc => desc
  | desc => asc

end Direction

/-- The operations on the sequence of rows. -/
inductive OperationKind where
  /-- One row for every element of a collection. -/
  | selectMany
  /-- Each row once. -/
  | distinct
  /-- Without the first rows. -/
  | skip
  /-- Only the first rows. -/
  | take
  /-- The rows with some matching element in a collection. -/
  | any
  /-- The rows whose elements in a collection all match. -/
  | all
  /-- The rows in opposite order. -/
  | reverse
  /-- The first row. -/
  | first
  /-- The first row, if there is one. -/
  | firstOrDefault
  /-- The only row. -/
  | single
  /-- The only row, if there is one. -/
  | singleOrDefault
deriving DecidableEq, Repr

namespace OperationKind

/-- All operations. -/
def kinds : List OperationKind :=
  [selectMany, distinct, skip, take, any, all, reverse, first, firstOrDefault, single, singleOrDefault]

/-- The symbol of an operation. -/
def symbol : OperationKind → String
  | selectMany => "SelectMany"
  | distinct => "Distinct"
  | skip => "Skip"
  | take => "Take"
  | any => "Any"
  | all => "All"
  | reverse => "Reverse"
  | first => "First"
  | firstOrDefault => "FirstOrDefault"
  | single => "Single"
  | singleOrDefault => "SingleOrDefault"

/-- Reads an operation. -/
def parse? (s : String) : Option OperationKind :=
  kinds.find? fun k => Text.lowerAscii k.symbol == Text.symbol s

/-- Whether the operation works on records before they are projected. -/
def isPreProjection (k : OperationKind) : Bool :=
  k == selectMany || k == distinct || k == skip || k == take || k == any || k == all || k == reverse

/-- Whether the operation works on projected rows after they are sorted. -/
def isPostProjection (k : OperationKind) : Bool :=
  k == distinct || k == first || k == firstOrDefault || k == single || k == singleOrDefault

/-- Whether the operation also turns the order of the result round. -/
def flipsOrder (k : OperationKind) : Bool := k == reverse

end OperationKind

/-- The functions that condense a group into one value. -/
inductive AggregateFunction where
  /-- The number of rows, or of values of a field. -/
  | count
  /-- The sum of a field. -/
  | sum
  /-- The average of a field. -/
  | avg
  /-- The least value of a field. -/
  | min
  /-- The greatest value of a field. -/
  | max
deriving DecidableEq, Repr

namespace AggregateFunction

/-- All aggregate functions. -/
def all : List AggregateFunction := [count, sum, avg, min, max]

/-- The symbol of an aggregate function. -/
def symbol : AggregateFunction → String
  | count => "count"
  | sum => "sum"
  | avg => "avg"
  | min => "min"
  | max => "max"

/-- Reads an aggregate function. -/
def parse? (s : String) : Option AggregateFunction := all.find? fun f => f.symbol == Text.symbol s

/-- Whether the function needs a field. -/
def requiresField (f : AggregateFunction) : Bool := f != count

end AggregateFunction

/-- The ways to attach the rows of another entity. -/
inductive JoinKind where
  /-- One row for every match. -/
  | join
  /-- One row for every row, with its matches nested. -/
  | groupJoin
deriving DecidableEq, Repr

namespace JoinKind

/-- The symbol of a join kind. -/
def symbol : JoinKind → String
  | join => "join"
  | groupJoin => "groupjoin"

/-- Reads a join kind. -/
def parse? (s : String) : Option JoinKind :=
  let s := Text.symbol s
  if s = "join" then some join else if s = "groupjoin" then some groupJoin else none

end JoinKind

end GuardedQuery
