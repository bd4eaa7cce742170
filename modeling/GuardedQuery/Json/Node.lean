import GuardedQuery.Json.Token

/-!
# The tree of a JSON text

A `Node` is what a text says before any of it is given a meaning: members keep their order and their
repetitions, and a broken text still has the tree of what stands before the break. A reader of the
tree meets the parts in the order of the text, so the first fault it reports is the first in the text.

## Main definitions

* `Node`, `Json.Draft`: the tree, and the tree of a whole text.
* `Json.draft`: the tree of a text.
* `Node.complete`: nothing breaks inside the node, so it can be skipped.
* `Node.toValue?`, `Node.ofValue`: between trees and values.
-/

namespace GuardedQuery

/-- The tree of a JSON text. -/
inductive Node where
  /-- The value `null`. -/
  | null
  /-- A truth value. -/
  | bool (b : Bool)
  /-- An integer. -/
  | int (n : Int)
  /-- Any other number. -/
  | float (x : Binary64)
  /-- A text. -/
  | string (s : String)
  /-- A well-formed part without a value: half of a surrogate pair, a number beyond the finite ones, or
  nesting beyond the limit. -/
  | unreadable
  /-- The place where the text stops being JSON. -/
  | cut
  /-- The items of an array, in the order of the text. -/
  | array (items : List Node)
  /-- The members of an object, in the order of the text; a name without a value is `none`. -/
  | object (members : List (Option String × Node))
deriving Inhabited

namespace Node

/-- The deepest nesting of arrays and objects that has a value. -/
def nestingLimit : Nat := 127

mutual

/-- Whether no part of the node breaks off. -/
def complete : Node → Bool
  | cut => false
  | array items => completeItems items
  | object ms => completeMembers ms
  | _ => true

/-- Whether no item breaks off. -/
def completeItems : List Node → Bool
  | [] => true
  | n :: rest => complete n && completeItems rest

/-- Whether no member breaks off. -/
def completeMembers : List (Option String × Node) → Bool
  | [] => true
  | (_, n) :: rest => complete n && completeMembers rest

end

mutual

/-- Takes away the value of arrays and objects nested deeper than the given number of levels. -/
def prune : Nat → Node → Node
  | 0, array items => if completeItems items then unreadable else cut
  | 0, object ms => if completeMembers ms then unreadable else cut
  | levels + 1, array items => array (pruneItems levels items)
  | levels + 1, object ms => object (pruneMembers levels ms)
  | _, n => n

/-- Prunes every item. -/
def pruneItems (levels : Nat) : List Node → List Node
  | [] => []
  | n :: rest => prune levels n :: pruneItems levels rest

/-- Prunes every member. -/
def pruneMembers (levels : Nat) : List (Option String × Node) → List (Option String × Node)
  | [] => []
  | (k, n) :: rest => (k, prune levels n) :: pruneMembers levels rest

end

mutual

/-- The number of arrays and objects on the longest path into the node. -/
def depth : Node → Nat
  | array items => 1 + depthItems items
  | object ms => 1 + depthMembers ms
  | _ => 0

/-- The greatest depth of an item. -/
def depthItems : List Node → Nat
  | [] => 0
  | n :: rest => max (depth n) (depthItems rest)

/-- The greatest depth of a member. -/
def depthMembers : List (Option String × Node) → Nat
  | [] => 0
  | (_, n) :: rest => max (depth n) (depthMembers rest)

end

mutual

/-- The value of a node, if every part of it has one. Of two members with one name the later stays. -/
def toValue? : Node → Option Value
  | null => some .null
  | bool b => some (.bool b)
  | int n => some (.int n)
  | float x => some (.float x)
  | string s => some (.string s)
  | unreadable => none
  | cut => none
  | array items => (itemValues? items).map .array
  | object ms => (memberValues? ms).map fun l => .object (Dict.ofList l)

/-- The values of all items. -/
def itemValues? : List Node → Option (List Value)
  | [] => some []
  | n :: rest => do return (← toValue? n) :: (← itemValues? rest)

/-- The names and values of all members. -/
def memberValues? : List (Option String × Node) → Option (List (String × Value))
  | [] => some []
  | (k, n) :: rest => do return (← k, ← toValue? n) :: (← memberValues? rest)

end

mutual

/-- The tree of a value's text. -/
def ofValue : Value → Node
  | .null => null
  | .bool b => bool b
  | .int n => int n
  | .float x => float x
  | .string s => string s
  | .array items => array (ofItems items)
  | .object ms => object (ofMembers ms)

/-- The trees of a list of values. -/
def ofItems : List Value → List Node
  | [] => []
  | v :: rest => ofValue v :: ofItems rest

/-- The trees of a list of members. -/
def ofMembers : List (String × Value) → List (Option String × Node)
  | [] => []
  | (k, v) :: rest => (some k, ofValue v) :: ofMembers rest

end

end Node

namespace Json

/-! ## From tokens to a tree -/

/-- The tree of a single token that is a value by itself. -/
def Token.node? : Token → Option Node
  | .null => some .null
  | .bool b => some (.bool b)
  | .int n => some (.int n)
  | .float x => some (.float x)
  | .overflow => some .unreadable
  | .string (some s) => some (.string s)
  | .string none => some .unreadable
  | _ => none

mutual

/-- The value at the start of the tokens and the tokens after it, which are `none` where it breaks
off. -/
def readValue : Nat → List Token → Node × Option (List Token)
  | 0, _ => (.cut, none)
  | _, [] => (.cut, none)
  | _ + 1, .openArray :: .closeArray :: rest => (.array [], some rest)
  | fuel + 1, .openArray :: rest =>
    let (items, rest) := readItems fuel rest
    (.array items, rest)
  | _ + 1, .openObject :: .closeObject :: rest => (.object [], some rest)
  | fuel + 1, .openObject :: rest =>
    let (ms, rest) := readMembers fuel rest
    (.object ms, rest)
  | _ + 1, t :: rest =>
    match t.node? with
    | some n => (n, some rest)
    | none => (.cut, none)

/-- The items of an array up to its end. -/
def readItems : Nat → List Token → List Node × Option (List Token)
  | 0, _ => ([.cut], none)
  | fuel + 1, ts =>
    match readValue fuel ts with
    | (n, none) => ([n], none)
    | (n, some (.closeArray :: rest)) => ([n], some rest)
    | (n, some (.comma :: rest)) =>
      let (items, rest) := readItems fuel rest
      (n :: items, rest)
    | (n, some _) => ([n, .cut], none)

/-- The members of an object up to its end. -/
def readMembers : Nat → List Token → List (Option String × Node) × Option (List Token)
  | 0, _ => ([(none, .cut)], none)
  | fuel + 1, .string k :: .colon :: ts =>
    match readValue fuel ts with
    | (n, none) => ([(k, n)], none)
    | (n, some (.closeObject :: rest)) => ([(k, n)], some rest)
    | (n, some (.comma :: rest)) =>
      let (ms, rest) := readMembers fuel rest
      ((k, n) :: ms, rest)
    | (n, some _) => ([(k, n), (none, .cut)], none)
  | _ + 1, _ => ([(none, .cut)], none)

end

/-- The tree of a whole text. -/
structure Draft where
  /-- The tree. -/
  root : Node
  /-- Whether nothing but white space follows it. -/
  ended : Bool

/-- The tree of a text, with the nesting limit applied. -/
def draft (text : String) : Draft :=
  let ts := tokens text.toList
  let (root, rest) := readValue (2 * ts.length + 1) ts
  { root := root.prune Node.nestingLimit
    ended := match rest with | some [] => true | _ => false }

/-- The value that a text stands for. -/
def parse? (text : String) : Option Value :=
  let d := draft text
  if d.ended then d.root.toValue? else none

end Json

end GuardedQuery
