import GuardedQuery.Binary64.Basic

/-!
# Decimal notation of binary64 numbers

Reading rounds a decimal to the nearest number. Writing takes the fewest digits that read back as the
same number, and of those the nearest to it. How the digits are laid out is one record, `Layout`.

## Main definitions

* `Binary64.ofDecimal?`: the number nearest to `± digits * 10 ^ exponent`.
* `Binary64.shortest`: the digits and the exponent of the shortest decimal that reads back.
* `Layout.write`: a decimal laid out positionally or in scientific notation.
-/

namespace GuardedQuery

/-- An unsigned decimal: `digits * 10 ^ exponent`. -/
structure Decimal where
  /-- The digits, read as one natural number. -/
  digits : Nat
  /-- The power of ten that scales the digits. -/
  exponent : Int
deriving DecidableEq, Repr

namespace Decimal

/-- The number of decimal digits of `n`; zero has one. -/
def width (n : Nat) : Nat := (Nat.toDigits 10 n).length

/-- Moves up to `fuel` trailing zeros of the digits into the exponent. -/
def trim : Nat → Decimal → Decimal
  | 0, d => d
  | fuel + 1, d =>
    if d.digits % 10 = 0 then trim fuel { digits := d.digits / 10, exponent := d.exponent + 1 } else d

/-- The numerator and the denominator of the decimal. -/
def ratio (d : Decimal) : Nat × Nat :=
  (d.digits * Nat.pow 10 d.exponent.toNat, Nat.pow 10 (-d.exponent).toNat)

end Decimal

namespace Binary64

/-- The number nearest to the decimal, with the given sign, or `none` when it overflows. Far outside
the range the answer is known from the position of the leading digit alone. -/
def ofDecimal? (negative : Bool) (d : Decimal) : Option Binary64 :=
  if d.digits = 0 then some (zero negative)
  else
    let top : Int := d.exponent + Decimal.width d.digits
    if 400 < top then none
    else if top < -400 then some (zero negative)
    else ofRatio? negative d.ratio.1 d.ratio.2

/-- The absolute value as a numerator and a denominator. -/
def ratio (x : Binary64) : Nat × Nat :=
  (x.significand <<< x.exponent.toNat, 1 <<< (-x.exponent).toNat)

/-- The position of the leading decimal digit of a positive quotient: the greatest `e` with
`10 ^ e ≤ num / den`. -/
def leadingPlace (num den : Nat) : Int :=
  if den ≤ num then Decimal.width (num / den) - 1 else -Decimal.width ((den - 1) / num)

/-- The neighbours of the absolute value on the grid of multiples of `10 ^ p`, the nearer first; of two
at the same distance the one with the even last digit comes first. -/
def neighbours (num den : Nat) (p : Int) : List Decimal :=
  let n := num * Nat.pow 10 (-p).toNat
  let d := den * Nat.pow 10 p.toNat
  let below : Decimal := { digits := n / d, exponent := p }
  let above : Decimal := { digits := n / d + 1, exponent := p }
  if 2 * (n % d) < d ∨ (2 * (n % d) = d ∧ n / d % 2 = 0) then [below, above] else [above, below]

/-- Whether the decimal reads back as the absolute value of the number. -/
def readsBack (x : Binary64) (d : Decimal) : Bool :=
  decide (ofDecimal? x.negative d = some x)

/-- The decimal with the fewest digits that reads back as the number, and among those the nearest.
Seventeen digits always suffice; the exact value stands behind them. -/
def shortest (x : Binary64) : Decimal :=
  let (num, den) := x.ratio
  let top := leadingPlace num den
  let tries := (List.range 17).flatMap fun (k : Nat) => neighbours num den (top - k)
  let exact : Decimal :=
    { digits := (x.significand <<< x.exponent.toNat) * Nat.pow 5 (-x.exponent).toNat
      exponent := min x.exponent 0 }
  if x.magnitude = 0 then { digits := 0, exponent := 0 }
  else Decimal.trim 400 ((tries.find? x.readsBack).getD exact)

end Binary64

/-- How the digits of a number are laid out. -/
structure Layout where
  /-- The least exponent of the leading digit written positionally. -/
  leastPositional : Int
  /-- The greatest exponent of the leading digit written positionally. -/
  greatestPositional : Int
  /-- Written after a whole number in positional notation. -/
  wholeMark : String
  /-- The sign of an exponent that is not negative. -/
  plus : String

/-- The layout of numbers in documents: positional from `1e-5` below `1e16`, a whole number keeps a zero
after the point, and an exponent always has its sign. -/
def Layout.document : Layout where
  leastPositional := -5
  greatestPositional := 15
  wholeMark := ".0"
  plus := "+"

namespace Layout

/-- Lays a decimal out. The digits are those of a natural number without trailing zeros. -/
def write (layout : Layout) (d : Decimal) : String :=
  let digits := Nat.toDigits 10 d.digits
  let n := digits.length
  let lead : Int := d.exponent + n - 1
  if layout.leastPositional ≤ lead ∧ lead ≤ layout.greatestPositional then
    if 0 ≤ d.exponent then
      String.ofList (digits ++ List.replicate d.exponent.toNat '0') ++ layout.wholeMark
    else if 0 ≤ lead then
      String.ofList (digits.take (lead.toNat + 1) ++ '.' :: digits.drop (lead.toNat + 1))
    else
      String.ofList ('0' :: '.' :: List.replicate (-lead - 1).toNat '0' ++ digits)
  else
    let mantissa :=
      match digits with
      | [d] => [d]
      | d :: rest => d :: '.' :: rest
      | [] => []
    let sign := if lead < 0 then "-" else layout.plus
    String.ofList mantissa ++ "e" ++ sign ++ String.ofList (Nat.toDigits 10 lead.natAbs)

end Layout

/-- The text of a number in a document: its sign, then its shortest decimal. -/
def Binary64.toText (x : Binary64) : String :=
  (if x.negative then "-" else "") ++ Layout.document.write x.shortest

end GuardedQuery
