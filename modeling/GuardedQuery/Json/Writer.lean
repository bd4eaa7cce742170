import GuardedQuery.Binary64.Decimal
import GuardedQuery.Json.Value

/-!
# Writing JSON

Documents are written without spaces. Within a text only quotes, backslashes and control characters
are escaped; all other characters stand for themselves.
-/

namespace GuardedQuery

namespace Json

/-- A hexadecimal digit in lower case. -/
def hexDigit (n : Nat) : Char :=
  if n < 10 then Char.ofNat (48 + n) else Char.ofNat (87 + n)

/-- A character inside a quoted text. -/
def escapeChar (c : Char) : List Char :=
  if c = '"' then ['\\', '"']
  else if c = '\\' then ['\\', '\\']
  else if c = '\n' then ['\\', 'n']
  else if c = '\r' then ['\\', 'r']
  else if c = '\t' then ['\\', 't']
  else if c = '\x08' then ['\\', 'b']
  else if c = '\x0c' then ['\\', 'f']
  else if c.toNat < 0x20 then ['\\', 'u', '0', '0', hexDigit (c.toNat / 16), hexDigit (c.toNat % 16)]
  else [c]

/-- A quoted text. -/
def quoteChars (s : String) : List Char :=
  '"' :: s.toList.flatMap escapeChar ++ ['"']

end Json

namespace Value

mutual

/-- The characters of a value's text. -/
def chars : Value → List Char
  | null => ['n', 'u', 'l', 'l']
  | bool true => ['t', 'r', 'u', 'e']
  | bool false => ['f', 'a', 'l', 's', 'e']
  | int n => (toString n).toList
  | float x => x.toText.toList
  | string s => Json.quoteChars s
  | array items => '[' :: itemChars items
  | object ms => '{' :: memberChars ms

/-- The characters of the items of an array, up to its end. -/
def itemChars : List Value → List Char
  | [] => [']']
  | [v] => chars v ++ [']']
  | v :: rest => chars v ++ ',' :: itemChars rest

/-- The characters of the members of an object, up to its end. -/
def memberChars : List (String × Value) → List Char
  | [] => ['}']
  | [(k, v)] => Json.quoteChars k ++ ':' :: chars v ++ ['}']
  | (k, v) :: rest => Json.quoteChars k ++ ':' :: chars v ++ ',' :: memberChars rest

end

/-- The text of a value. -/
def toText (v : Value) : String := String.ofList (chars v)

/-- The text of an object whose members are written in the given order. -/
def textInOrder (members : List (String × Value)) : String := (object members).toText

end Value

end GuardedQuery
