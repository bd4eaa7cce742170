import GuardedQuery.Binary64.Decimal
import GuardedQuery.Json.Value

/-!
# Tokens of a JSON text

A text is cut into tokens up to its first character that no token can hold; `Token.junk` marks that
place. Two kinds of token are well formed and still have no value: a quoted text with half of a
surrogate pair, and a number beyond the finite numbers. They matter only to whoever wants their value.

## Main definitions

* `Json.quotedPieces`, `Json.joinPieces`: a quoted text, and the text it stands for.
* `Json.Numeral`: the parts of a number, and `Json.Numeral.token`, its value.
* `Json.tokens`: all tokens of a text.
-/

namespace GuardedQuery.Json

/-- A token. -/
inductive Token where
  /-- An opening square bracket. -/
  | openArray
  /-- A closing square bracket. -/
  | closeArray
  /-- An opening brace. -/
  | openObject
  /-- A closing brace. -/
  | closeObject
  /-- A colon. -/
  | colon
  /-- A comma. -/
  | comma
  /-- The word `null`. -/
  | null
  /-- The word `true` or `false`. -/
  | bool (b : Bool)
  /-- A number that is an integer of 64 bits. -/
  | int (n : Int)
  /-- Any other number within the finite numbers. -/
  | float (x : Binary64)
  /-- A number beyond the finite numbers. -/
  | overflow
  /-- A quoted text, without a value if it holds half of a surrogate pair. -/
  | string (s : Option String)
  /-- The place where the text stops being JSON. -/
  | junk

/-! ## Quoted texts -/

/-- A character of a quoted text, or a UTF-16 unit written as an escape. -/
inductive Piece where
  /-- A character. -/
  | char (c : Char)
  /-- A UTF-16 unit. -/
  | unit (n : Nat)

/-- The value of a hexadecimal digit. -/
def hexValue? (c : Char) : Option Nat :=
  if '0' ≤ c ∧ c ≤ '9' then some (c.toNat - 48)
  else if 'a' ≤ c ∧ c ≤ 'f' then some (c.toNat - 87)
  else if 'A' ≤ c ∧ c ≤ 'F' then some (c.toNat - 55)
  else none

/-- The number that four hexadecimal digits stand for. -/
def hexUnit? (a b c d : Char) : Option Nat := do
  return (((← hexValue? a) * 16 + (← hexValue? b)) * 16 + (← hexValue? c)) * 16 + (← hexValue? d)

/-- The character that a single letter stands for after a backslash. -/
def shortEscape? (c : Char) : Option Char :=
  match c with
  | '"' => some '"'
  | '\\' => some '\\'
  | '/' => some '/'
  | 'b' => some '\x08'
  | 'f' => some '\x0c'
  | 'n' => some '\n'
  | 'r' => some '\r'
  | 't' => some '\t'
  | _ => none

/-- The pieces of a quoted text up to its closing quote, and the characters after it. Control
characters must be escaped. -/
def quotedPieces : List Char → Option (List Piece × List Char)
  | [] => none
  | '"' :: rest => some ([], rest)
  | '\\' :: 'u' :: a :: b :: c :: d :: rest => do
    let n ← hexUnit? a b c d
    let (pieces, rest) ← quotedPieces rest
    return (.unit n :: pieces, rest)
  | '\\' :: e :: rest => do
    let c ← shortEscape? e
    let (pieces, rest) ← quotedPieces rest
    return (.char c :: pieces, rest)
  | c :: rest =>
    if c.toNat < 0x20 then none
    else do
      let (pieces, rest) ← quotedPieces rest
      return (.char c :: pieces, rest)

/-- Whether a UTF-16 unit is the first half of a surrogate pair. -/
def isHighSurrogate (n : Nat) : Bool := 0xD800 ≤ n && n < 0xDC00

/-- Whether a UTF-16 unit is the second half of a surrogate pair. -/
def isLowSurrogate (n : Nat) : Bool := 0xDC00 ≤ n && n < 0xE000

/-- The characters that the pieces stand for; `none` if half of a surrogate pair stands alone. -/
def joinPieces : List Piece → Option (List Char)
  | [] => some []
  | .char c :: rest => (joinPieces rest).map (c :: ·)
  | .unit n :: .unit m :: rest =>
    if isHighSurrogate n && isLowSurrogate m then
      (joinPieces rest).map (Char.ofNat (0x10000 + (n - 0xD800) * 0x400 + (m - 0xDC00)) :: ·)
    else if isHighSurrogate n || isLowSurrogate n then none
    else (joinPieces (.unit m :: rest)).map (Char.ofNat n :: ·)
  | .unit n :: rest =>
    if isHighSurrogate n || isLowSurrogate n then none
    else (joinPieces rest).map (Char.ofNat n :: ·)

/-! ## Numbers -/

/-- The parts of a number as it is written. -/
structure Numeral where
  /-- Whether it starts with a minus sign. -/
  negative : Bool
  /-- The digits before the point. -/
  whole : List Char
  /-- The digits after the point, if there is one. -/
  fraction : Option (List Char)
  /-- The sign and the digits of the exponent, if there is one; `true` for a minus sign. -/
  exponent : Option (Bool × List Char)

/-- The number that a list of decimal digits stands for. -/
def digitsValue (digits : List Char) : Nat :=
  digits.foldl (fun n c => 10 * n + (c.toNat - 48)) 0

/-- The digits at the start of the characters, and what follows them. -/
def spanDigits (cs : List Char) : List Char × List Char :=
  (cs.takeWhile Char.isDigit, cs.dropWhile Char.isDigit)

/-- The fraction at the start of the characters, if there is one. A point needs a digit after it. -/
def fraction? : List Char → Option (Option (List Char) × List Char)
  | '.' :: rest =>
    match spanDigits rest with
    | ([], _) => none
    | (digits, rest) => some (some digits, rest)
  | rest => some (none, rest)

/-- The exponent at the start of the characters, if there is one. Its letter needs a digit. -/
def exponent? : List Char → Option (Option (Bool × List Char) × List Char)
  | [] => some (none, [])
  | c :: rest =>
    if c = 'e' ∨ c = 'E' then
      let (minus, rest) :=
        match rest with
        | '-' :: rest => (true, rest)
        | '+' :: rest => (false, rest)
        | rest => (false, rest)
      match spanDigits rest with
      | ([], _) => none
      | (digits, rest) => some (some (minus, digits), rest)
    else some (none, c :: rest)

/-- The whole part at the start of the characters. A zero stands alone. -/
def whole? : List Char → Option (List Char × List Char)
  | '0' :: rest => some (['0'], rest)
  | cs =>
    match spanDigits cs with
    | ([], _) => none
    | (digits, rest) => some (digits, rest)

/-- The number at the start of the characters. -/
def numeral? (cs : List Char) : Option (Numeral × List Char) := do
  let (negative, cs) :=
    match cs with
    | '-' :: rest => (true, rest)
    | rest => (false, rest)
  let (whole, cs) ← whole? cs
  let (fraction, cs) ← fraction? cs
  let (exponent, cs) ← exponent? cs
  return ({ negative, whole, fraction, exponent }, cs)

/-- The value of a number. Without fraction and exponent it is an integer if 64 bits can hold it, but
minus zero is no integer. -/
def Numeral.token (n : Numeral) : Token :=
  let fraction := n.fraction.getD []
  let shift : Int :=
    match n.exponent with
    | none => 0
    | some (minus, digits) => if minus then -digitsValue digits else digitsValue digits
  let magnitude := digitsValue n.whole
  let whole := n.fraction.isNone && n.exponent.isNone
  if whole && !n.negative && magnitude ≤ 0xFFFFFFFFFFFFFFFF then .int magnitude
  else if whole && n.negative && 0 < magnitude && magnitude ≤ 0x8000000000000000 then .int (-magnitude)
  else
    let d : Decimal := { digits := digitsValue (n.whole ++ fraction), exponent := shift - fraction.length }
    match Binary64.ofDecimal? n.negative d with
    | some x => .float x
    | none => .overflow

/-! ## The tokens of a text -/

/-- The characters that may stand between tokens. -/
def isSpace (c : Char) : Bool := c == ' ' || c == '\n' || c == '\t' || c == '\r'

/-- The token that a mark or a word at the start of the characters stands for. -/
def fixedToken? : List Char → Option (Token × List Char)
  | '[' :: rest => some (.openArray, rest)
  | ']' :: rest => some (.closeArray, rest)
  | '\x7b' :: rest => some (.openObject, rest)
  | '\x7d' :: rest => some (.closeObject, rest)
  | ':' :: rest => some (.colon, rest)
  | ',' :: rest => some (.comma, rest)
  | 'n' :: 'u' :: 'l' :: 'l' :: rest => some (.null, rest)
  | 't' :: 'r' :: 'u' :: 'e' :: rest => some (.bool true, rest)
  | 'f' :: 'a' :: 'l' :: 's' :: 'e' :: rest => some (.bool false, rest)
  | _ => none

/-- The token at the start of the characters. -/
def nextToken? (cs : List Char) : Option (Token × List Char) :=
  match fixedToken? cs with
  | some found => some found
  | none =>
    match cs with
    | '"' :: rest => do
      let (pieces, rest) ← quotedPieces rest
      return (.string ((joinPieces pieces).map String.ofList), rest)
    | cs => do
      let (n, rest) ← numeral? cs
      return (n.token, rest)

/-- The tokens of at most `fuel` characters. -/
def tokensUpTo : Nat → List Char → List Token
  | 0, _ => []
  | fuel + 1, cs =>
    match cs.dropWhile isSpace with
    | [] => []
    | cs =>
      match nextToken? cs with
      | none => [.junk]
      | some (t, rest) => t :: tokensUpTo fuel rest

/-- The tokens of a text. Every token takes a character at least, so their number bounds the search. -/
def tokens (cs : List Char) : List Token := tokensUpTo (cs.length + 1) cs

end GuardedQuery.Json
