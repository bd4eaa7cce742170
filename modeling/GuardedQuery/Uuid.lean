/-!
# UUIDs

A UUID is a 128-bit number. It is read from 32 hexadecimal digits, plain or in hyphenated groups; the
hyphenated form may stand in braces or after `urn:uuid:`, in any case. It is written hyphenated in lower case. The
order of the numbers is the order of their bytes.
-/

namespace GuardedQuery

/-- A UUID, as a 128-bit number. -/
structure Uuid where
  /-- The number. -/
  value : Nat
deriving DecidableEq, Repr

namespace Uuid

/-- The value of a hexadecimal digit. -/
def digit? (c : Char) : Option Nat :=
  if '0' ≤ c ∧ c ≤ '9' then some (c.toNat - 48)
  else if 'a' ≤ c ∧ c ≤ 'f' then some (c.toNat - 87)
  else if 'A' ≤ c ∧ c ≤ 'F' then some (c.toNat - 55)
  else none

/-- The number that a list of hexadecimal digits stands for. -/
def digits? (cs : List Char) : Option Nat :=
  cs.foldlM (fun n c => (digit? c).map (16 * n + ·)) 0

/-- The digits of the hyphenated form, whose groups have 8, 4, 4, 4 and 12 digits. -/
def ungroup? (cs : List Char) : Option (List Char) :=
  if cs.length = 36 then
    match cs.drop 8, cs.drop 13, cs.drop 18, cs.drop 23 with
    | '-' :: a, '-' :: b, '-' :: c, '-' :: d =>
      some (cs.take 8 ++ a.take 4 ++ b.take 4 ++ c.take 4 ++ d)
    | _, _, _, _ => none
  else none

/-- The 32 digits of any accepted form. -/
def form? (cs : List Char) : Option (List Char) :=
  if cs.length = 32 then some cs
  else if (cs.take 9).map Char.toLower = ['u', 'r', 'n', ':', 'u', 'u', 'i', 'd', ':'] then
    ungroup? (cs.drop 9)
  else
    match cs with
    | '\x7b' :: rest => if rest.getLast? = some '\x7d' then ungroup? rest.dropLast else none
    | cs => ungroup? cs

/-- Reads a UUID. -/
def parse? (s : String) : Option Uuid := do
  let digits ← form? s.toList
  return { value := ← digits? digits }

/-- A hexadecimal digit in lower case. -/
def hexDigit (n : Nat) : Char :=
  if n < 10 then Char.ofNat (48 + n) else Char.ofNat (87 + n)

/-- The last digits of a number in base 16. -/
def hexDigits (count n : Nat) : List Char :=
  (List.range count).map fun i => hexDigit ((n >>> (4 * (count - 1 - i))) % 16)

/-- The hyphenated form in lower case. -/
def toText (u : Uuid) : String :=
  let cs := hexDigits 32 u.value
  String.ofList (cs.take 8 ++ '-' :: (cs.drop 8).take 4 ++ '-' :: (cs.drop 12).take 4
    ++ '-' :: (cs.drop 16).take 4 ++ '-' :: cs.drop 20)

end Uuid

end GuardedQuery
