/-!
# Finite binary64 numbers

A `Binary64` is one of the finite numbers of the 64-bit binary floating-point format, held as a sign
and a magnitude pattern: the exponent and fraction bits read as one natural number. Patterns grow with
the absolute value, so `Binary64.key` orders the numbers by comparing integers, with the two zeros
equal. All arithmetic goes through exact rationals and one rounding, `roundRatio`.

## Main definitions

* `Binary64.significand`, `Binary64.exponent`: the number is `± significand * 2 ^ exponent`.
* `roundRatio`: the pattern nearest to a quotient, a tie going to the even pattern.
* `Binary64.add`, `Binary64.divNat`, `Binary64.ofInt`: rounded arithmetic, `none` when it overflows.
-/

namespace GuardedQuery

/-- A finite number of the 64-bit binary floating-point format. -/
structure Binary64 where
  /-- Whether the sign bit is set; it tells the two zeros apart. -/
  negative : Bool
  /-- The exponent and fraction bits, read as one number. -/
  magnitude : Nat
  /-- The exponent bits are not all ones, so the number is finite. -/
  finite : magnitude < 2047 <<< 52 := by decide
deriving DecidableEq, Repr

/-- The quotient of two naturals rounded to the nearest natural, a half going to the even one. -/
def divHalfEven (n d : Nat) : Nat :=
  if 2 * (n % d) < d then n / d
  else if d < 2 * (n % d) then n / d + 1
  else n / d + n / d % 2

/-- The greatest `e` with `2 ^ e ≤ num / den`, for positive `num` and `den`. -/
def floorLog2 (num den : Nat) : Int :=
  let e : Int := (num.log2 : Int) - den.log2
  if den <<< e.toNat ≤ num <<< (-e).toNat then e else e - 1

/-- The magnitude pattern nearest to `num / den`. Below the normal range the grid has the fixed
exponent `-1074`; a significand that rounds up to the next power of two carries into the exponent by
itself. The pattern is too large for a finite number exactly when the quotient overflows. -/
def roundRatio (num den : Nat) : Nat :=
  if num = 0 then 0
  else
    let q : Int := max (-1074) (floorLog2 num den - 52)
    let m := divHalfEven (num <<< (-q).toNat) (den <<< q.toNat)
    ((q + 1074).toNat <<< 52) + m

namespace Binary64

/-- The zero of the given sign. -/
def zero (negative : Bool) : Binary64 where
  negative := negative
  magnitude := 0

/-- The largest finite number of the given sign. -/
def largest (negative : Bool) : Binary64 where
  negative := negative
  magnitude := (2047 <<< 52) - 1

instance : Inhabited Binary64 := ⟨zero false⟩

/-- The integer factor of the number, without its sign. -/
def significand (x : Binary64) : Nat :=
  if x.magnitude < 1 <<< 52 then x.magnitude else (1 <<< 52) + x.magnitude % (1 <<< 52)

/-- The power of two that scales the significand. -/
def exponent (x : Binary64) : Int :=
  if x.magnitude < 1 <<< 52 then -1074 else (x.magnitude >>> 52 : Nat) - 1075

/-- Numbers are in the order of their keys, and the two zeros share one. -/
def key (x : Binary64) : Int :=
  if x.negative then -x.magnitude else x.magnitude

/-- Numerical comparison. -/
def compare (x y : Binary64) : Ordering :=
  Ord.compare x.key y.key

/-- The number of the given sign nearest to `num / den`, or `none` beyond the finite numbers. -/
def ofRatio? (negative : Bool) (num den : Nat) : Option Binary64 :=
  if h : roundRatio num den < 2047 <<< 52 then
    some { negative, magnitude := roundRatio num den, finite := h }
  else none

/-- The number nearest to an integer; integers beyond the range go to the largest number. -/
def ofInt (n : Int) : Binary64 :=
  (ofRatio? (decide (n < 0)) n.natAbs 1).getD (largest (decide (n < 0)))

/-- The significand with its sign, scaled to the exponent `q` at or below the number's own. -/
def scaledTo (x : Binary64) (q : Int) : Int :=
  let m : Int := (x.significand <<< (x.exponent - q).toNat : Nat)
  if x.negative then -m else m

/-- The rounded sum, or `none` when it overflows. A sum of zero is negative only if both terms are. -/
def add (x y : Binary64) : Option Binary64 :=
  let q := min x.exponent y.exponent
  let s := x.scaledTo q + y.scaledTo q
  if s = 0 then some (zero (x.negative && y.negative))
  else ofRatio? (decide (s < 0)) (s.natAbs <<< q.toNat) (1 <<< (-q).toNat)

/-- The rounded quotient by a positive count, or `none` when it overflows. -/
def divNat (x : Binary64) (n : Nat) : Option Binary64 :=
  ofRatio? x.negative (x.significand <<< x.exponent.toNat) (n <<< (-x.exponent).toNat)

end Binary64

end GuardedQuery
