import GuardedQuery.Binary64.Decimal
import Mathlib

/-!
# Rounding, and shortest decimals

Rounding sees a quotient only through its value, and it leaves the quotients that are numbers already as
they are. So a decimal may be written with more zeros and a smaller exponent, and the exact decimal of a
number is read as that number. That exact decimal stands behind the shorter ones `Binary64.shortest` tries, so
there is always one that is read back. Rounding also keeps the order of quotients: it only makes some of them
equal.

## Main definitions

* `gridExponent`, `gridSteps`: the grid on which a quotient is rounded, and its number of steps.

## Main statements

* `roundRatio_congr`: equal quotients are rounded alike.
* `Binary64.roundRatio_ratio`: a number is its own rounding.
* `Binary64.ofDecimal?_shortest`: the shortest decimal of a number is read back.
* `Binary64.key_ofInt_le_key_ofInt`: rounding keeps the order of integers.
-/

namespace GuardedQuery

/-! ## Rounding of quotients -/

/-- Shifting one side or the other compares with a power of two. -/
theorem shiftLeft_le_shiftLeft_iff (a b : ℕ) (e : ℤ) :
    a <<< e.toNat ≤ b <<< (-e).toNat ↔ (a : ℚ) * 2 ^ e ≤ b := by
  rw [Nat.shiftLeft_eq, Nat.shiftLeft_eq]
  rcases Int.le_total 0 e with he | he
  · obtain ⟨k, rfl⟩ := Int.eq_ofNat_of_zero_le he
    have hneg : (-(k : ℤ)).toNat = 0 := by omega
    rw [hneg, Int.toNat_natCast, zpow_natCast]
    norm_cast
    simp
  · obtain ⟨k, hk⟩ := Int.eq_ofNat_of_zero_le (Int.neg_nonneg_of_nonpos he)
    obtain rfl : e = -(k : ℤ) := by omega
    have hneg : (-(k : ℤ)).toNat = 0 := by omega
    have hpow : (0 : ℚ) < 2 ^ k := by positivity
    rw [hneg, Int.neg_neg, Int.toNat_natCast, zpow_neg, zpow_natCast, ← div_eq_mul_inv, div_le_iff₀ hpow]
    norm_cast
    simp

/-- The logarithm of a quotient, rounded down. -/
theorem floorLog2_eq_log {num den : ℕ} (hnum : 0 < num) (hden : 0 < den) :
    floorLog2 num den = Int.log 2 ((num : ℚ) / den) := by
  have hden' : (0 : ℚ) < den := by exact_mod_cast hden
  have hpos : (0 : ℚ) < num / den := by positivity
  have hle : ∀ e : ℤ, (den <<< e.toNat ≤ num <<< (-e).toNat ↔ e ≤ Int.log 2 ((num : ℚ) / den)) := by
    intro e
    rw [shiftLeft_le_shiftLeft_iff, ← Int.zpow_le_iff_le_log Nat.one_lt_two hpos, le_div_iff₀ hden', mul_comm]
    rfl
  have hnumLow : (2 : ℚ) ^ (num.log2 : ℤ) ≤ num := by exact_mod_cast Nat.log2_self_le hnum.ne'
  have hnumHigh : (num : ℚ) < 2 ^ ((num.log2 : ℤ) + 1) := by exact_mod_cast Nat.lt_log2_self
  have hdenLow : (2 : ℚ) ^ (den.log2 : ℤ) ≤ den := by exact_mod_cast Nat.log2_self_le hden.ne'
  have hdenHigh : (den : ℚ) < 2 ^ ((den.log2 : ℤ) + 1) := by exact_mod_cast Nat.lt_log2_self
  have hlow : (num.log2 : ℤ) - den.log2 - 1 ≤ Int.log 2 ((num : ℚ) / den) := by
    rw [← Int.zpow_le_iff_le_log Nat.one_lt_two hpos, le_div_iff₀ hden']
    calc (2 : ℚ) ^ ((num.log2 : ℤ) - den.log2 - 1) * den
        ≤ 2 ^ ((num.log2 : ℤ) - den.log2 - 1) * 2 ^ ((den.log2 : ℤ) + 1) := by gcongr
      _ = 2 ^ (num.log2 : ℤ) := by rw [← zpow_add₀ two_ne_zero]; ring_nf
      _ ≤ num := hnumLow
  have hhigh : Int.log 2 ((num : ℚ) / den) < (num.log2 : ℤ) - den.log2 + 1 := by
    rw [← Int.lt_zpow_iff_log_lt Nat.one_lt_two hpos, div_lt_iff₀ hden']
    calc (num : ℚ) < 2 ^ ((num.log2 : ℤ) + 1) := hnumHigh
      _ = 2 ^ ((num.log2 : ℤ) - den.log2 + 1) * 2 ^ (den.log2 : ℤ) := by
        rw [← zpow_add₀ two_ne_zero]; ring_nf
      _ ≤ 2 ^ ((num.log2 : ℤ) - den.log2 + 1) * den := by gcongr
  simp only [floorLog2, hle]
  split <;> omega

theorem divHalfEven_mul_right (n d : ℕ) {k : ℕ} (hk : 0 < k) : divHalfEven (n * k) (d * k) = divHalfEven n d := by
  simp only [divHalfEven, Nat.mul_mod_mul_right, Nat.mul_div_mul_right n d hk, ← Nat.mul_assoc,
    Nat.mul_lt_mul_right hk]

theorem divHalfEven_one (n : ℕ) : divHalfEven n 1 = n := by simp [divHalfEven, Nat.mod_one]

theorem roundRatio_mul_right {num den : ℕ} (hden : 0 < den) {k : ℕ} (hk : 0 < k) :
    roundRatio (num * k) (den * k) = roundRatio num den := by
  rcases Nat.eq_zero_or_pos num with rfl | hnum
  · simp [roundRatio]
  · have hk' : (k : ℚ) ≠ 0 := by exact_mod_cast hk.ne'
    have hlog : floorLog2 (num * k) (den * k) = floorLog2 num den := by
      rw [floorLog2_eq_log (Nat.mul_pos hnum hk) (Nat.mul_pos hden hk), floorLog2_eq_log hnum hden]
      push_cast
      rw [mul_div_mul_right _ _ hk']
    have hshift : ∀ a b : ℕ, (a * k) <<< b = (a <<< b) * k := by
      intro a b
      rw [Nat.shiftLeft_eq, Nat.shiftLeft_eq, Nat.mul_right_comm]
    have hzero : num * k ≠ 0 := (Nat.mul_pos hnum hk).ne'
    simp only [roundRatio, if_neg hzero, if_neg hnum.ne', hlog, hshift, divHalfEven_mul_right _ _ hk]

/-- **Equal quotients are rounded alike.** -/
theorem roundRatio_congr {num den num' den' : ℕ} (hden : 0 < den) (hden' : 0 < den')
    (h : num * den' = num' * den) : roundRatio num den = roundRatio num' den' := by
  rw [← roundRatio_mul_right hden hden', h, Nat.mul_comm den den', roundRatio_mul_right hden' hden]

/-! ## Numbers as quotients -/

namespace Binary64

theorem ofRatio?_congr (negative : Bool) {num den num' den' : ℕ} (hden : 0 < den) (hden' : 0 < den')
    (h : num * den' = num' * den) : ofRatio? negative num den = ofRatio? negative num' den' := by
  have hround := roundRatio_congr hden hden' h
  unfold ofRatio?
  split <;> split <;> first | omega | simp only [hround]

variable (x : Binary64)

theorem significand_lt : x.significand < 2 ^ 53 := by
  have hpow : (1 <<< 52 : ℕ) = 2 ^ 52 := by decide
  rw [significand, hpow]
  split
  · omega
  · have := Nat.mod_lt x.magnitude (Nat.two_pow_pos 52)
    omega

theorem le_exponent : -1074 ≤ x.exponent := by
  have hpow : (1 <<< 52 : ℕ) = 2 ^ 52 := by decide
  rw [exponent, hpow, Nat.shiftRight_eq_div_pow]
  split <;> omega

theorem exponent_le : x.exponent ≤ 971 := by
  have hpow : (1 <<< 52 : ℕ) = 2 ^ 52 := by decide
  have hfinite := x.finite
  have hbound : (2047 <<< 52 : ℕ) = 2047 * 2 ^ 52 := by decide
  rw [hbound] at hfinite
  rw [exponent, hpow, Nat.shiftRight_eq_div_pow]
  split <;> omega

/-- The significand fills its bits, except on the lowest grid. -/
theorem le_significand_or : 2 ^ 52 ≤ x.significand ∨ x.exponent = -1074 := by
  have hpow : (1 <<< 52 : ℕ) = 2 ^ 52 := by decide
  rw [significand, exponent, hpow]
  split <;> omega

/-- The pattern is put together from the exponent and the significand. -/
theorem exponent_add_significand : ((x.exponent + 1074).toNat <<< 52) + x.significand = x.magnitude := by
  have hpow : (1 <<< 52 : ℕ) = 2 ^ 52 := by decide
  rw [exponent, significand, hpow, Nat.shiftRight_eq_div_pow, Nat.shiftLeft_eq]
  split <;> omega

theorem significand_pos (h : x.magnitude ≠ 0) : 0 < x.significand := by
  have hpow : (1 <<< 52 : ℕ) = 2 ^ 52 := by decide
  rw [significand, hpow]
  split <;> omega

theorem ratio_fst_pos (h : x.magnitude ≠ 0) : 0 < x.ratio.1 := by
  have := x.significand_pos h
  simp only [ratio, Nat.shiftLeft_eq]
  positivity

theorem ratio_snd_pos : 0 < x.ratio.2 := by
  simp only [ratio, Nat.shiftLeft_eq]
  positivity

/-- The grid of a number is the one that rounding picks for it. -/
theorem max_log_eq_exponent (h : x.magnitude ≠ 0) :
    max (-1074) (Int.log 2 ((x.significand : ℚ) * 2 ^ x.exponent) - 52) = x.exponent := by
  have hpos : (0 : ℚ) < x.significand * 2 ^ x.exponent := by
    have := x.significand_pos h
    positivity
  have hupper : Int.log 2 ((x.significand : ℚ) * 2 ^ x.exponent) < 53 + x.exponent := by
    rw [← Int.lt_zpow_iff_log_lt Nat.one_lt_two hpos, Nat.cast_ofNat, zpow_add₀ two_ne_zero]
    gcongr
    exact_mod_cast x.significand_lt
  rcases x.le_significand_or with hfull | hlowest
  · have hlower : 52 + x.exponent ≤ Int.log 2 ((x.significand : ℚ) * 2 ^ x.exponent) := by
      rw [← Int.zpow_le_iff_le_log Nat.one_lt_two hpos, Nat.cast_ofNat, zpow_add₀ two_ne_zero]
      gcongr
      exact_mod_cast hfull
    have := x.le_exponent
    omega
  · omega

/-- **A number is its own rounding.** -/
theorem roundRatio_ratio (h : x.magnitude ≠ 0) : roundRatio x.ratio.1 x.ratio.2 = x.magnitude := by
  have hnum := x.ratio_fst_pos h
  have hvalue : (x.ratio.1 : ℚ) / x.ratio.2 = x.significand * 2 ^ x.exponent := by
    simp only [ratio, Nat.shiftLeft_eq, one_mul, Nat.cast_mul, Nat.cast_pow, Nat.cast_ofNat]
    rw [mul_div_assoc, ← zpow_natCast, ← zpow_natCast, ← zpow_sub₀ two_ne_zero]
    congr 2
    omega
  have hlog : max (-1074) (floorLog2 x.ratio.1 x.ratio.2 - 52) = x.exponent := by
    rw [floorLog2_eq_log hnum x.ratio_snd_pos, hvalue, max_log_eq_exponent x h]
  have hquotient : divHalfEven (x.ratio.1 <<< (-x.exponent).toNat) (x.ratio.2 <<< x.exponent.toNat) =
      x.significand := by
    simp only [ratio, Nat.shiftLeft_eq, one_mul]
    rw [Nat.mul_assoc, Nat.mul_comm (2 ^ (-x.exponent).toNat), ← Nat.one_mul (2 ^ x.exponent.toNat * _),
      ← Nat.mul_assoc x.significand, Nat.mul_one, divHalfEven_mul_right _ _ (by positivity), divHalfEven_one]
  rw [roundRatio, if_neg hnum.ne']
  simp only [hlog, hquotient, exponent_add_significand]

/-- A quotient with the value of a number is rounded to it. -/
theorem ofRatio?_eq_some (h : x.magnitude ≠ 0) {num den : ℕ} (hden : 0 < den)
    (hvalue : num * x.ratio.2 = x.ratio.1 * den) : ofRatio? x.negative num den = some x := by
  have hround : roundRatio num den = x.magnitude := by
    rw [roundRatio_congr hden x.ratio_snd_pos hvalue, roundRatio_ratio x h]
  rw [ofRatio?, dif_pos (hround ▸ x.finite)]
  cases x
  simp only [Option.some.injEq, mk.injEq, true_and]
  exact hround

end Binary64

/-! ## Decimals -/

namespace Decimal

theorem lt_pow_width (n : ℕ) : n < 10 ^ width n :=
  (Nat.length_toDigits_le_iff (by decide) Nat.length_toDigits_pos).mp le_rfl

theorem width_mul_ten {n : ℕ} (hn : 0 < n) : width (n * 10) = width n + 1 := by
  have hdigits := Nat.toDigits_append_toDigits (b := 10) (n := n) (d := 0) (by decide) hn (by decide)
  rw [width, width, Nat.mul_comm, ← Nat.add_zero (10 * n), ← hdigits, List.length_append]
  rfl

theorem width_mul_pow {n : ℕ} (hn : 0 < n) (k : ℕ) : width (n * 10 ^ k) = width n + k := by
  induction k with
  | zero => simp
  | succ k ih => rw [pow_succ, ← Nat.mul_assoc, width_mul_ten (by positivity), ih, Nat.add_assoc]

end Decimal

namespace Binary64

/-- Zeros at the end of the digits may stand in the exponent instead. -/
theorem ofDecimal?_mul_pow (negative : Bool) (n k : ℕ) (e : ℤ) :
    ofDecimal? negative { digits := n * 10 ^ k, exponent := e } =
      ofDecimal? negative { digits := n, exponent := e + k } := by
  rcases Nat.eq_zero_or_pos n with rfl | hn
  · simp [ofDecimal?]
  · have htop : e + (Decimal.width (n * 10 ^ k) : ℕ) = e + k + (Decimal.width n : ℕ) := by
      rw [Decimal.width_mul_pow hn]
      omega
    have hscaled : n * 10 ^ k ≠ 0 := by positivity
    have hratio : n * 10 ^ k * 10 ^ e.toNat * 10 ^ (-(e + k)).toNat =
        n * 10 ^ (e + k).toNat * 10 ^ (-e).toNat := by
      have hexponent : k + e.toNat + (-(e + k)).toNat = (e + k).toNat + (-e).toNat := by omega
      rw [Nat.mul_assoc n, Nat.mul_assoc n, Nat.mul_assoc n, ← pow_add, ← pow_add, ← pow_add, hexponent]
    have hread : ofRatio? negative (n * 10 ^ k * 10 ^ e.toNat) (10 ^ (-e).toNat) =
        ofRatio? negative (n * 10 ^ (e + k).toNat) (10 ^ (-(e + k)).toNat) :=
      ofRatio?_congr negative (by positivity) (by positivity) hratio
    simp only [ofDecimal?, hscaled, hn.ne', if_false, htop, Decimal.ratio, Nat.pow_eq, hread]

theorem ofDecimal?_trim (negative : Bool) (fuel : ℕ) (d : Decimal) :
    ofDecimal? negative (Decimal.trim fuel d) = ofDecimal? negative d := by
  induction fuel generalizing d with
  | zero => rfl
  | succ fuel ih =>
    rw [Decimal.trim]
    split
    · rename_i hzero
      have hdigits : d.digits = d.digits / 10 * 10 ^ 1 := by omega
      rw [ih]
      conv_rhs => rw [show d = { digits := d.digits / 10 * 10 ^ 1, exponent := d.exponent } by rw [← hdigits]]
      exact (ofDecimal?_mul_pow negative (d.digits / 10) 1 d.exponent).symm
    · rfl

/-- The exact decimal of a number is read as the number. -/
theorem ofDecimal?_exact (x : Binary64) (h : x.magnitude ≠ 0) :
    ofDecimal? x.negative
      { digits := (x.significand <<< x.exponent.toNat) * Nat.pow 5 (-x.exponent).toNat
        exponent := min x.exponent 0 } = some x := by
  obtain ⟨a, ha⟩ : ∃ a : ℕ, a = x.exponent.toNat := ⟨_, rfl⟩
  obtain ⟨b, hb⟩ : ∃ b : ℕ, b = (-x.exponent).toNat := ⟨_, rfl⟩
  have hpos := x.significand_pos h
  have hleast := x.le_exponent
  have hgreatest := x.exponent_le
  have hexponent : min x.exponent 0 = -(b : ℤ) := by omega
  rw [Nat.shiftLeft_eq, Nat.pow_eq, ← ha, ← hb, hexponent]
  obtain ⟨digits, hdigits⟩ : ∃ digits, digits = x.significand * 2 ^ a * 5 ^ b := ⟨_, rfl⟩
  have hdigitsPos : 0 < digits := hdigits ▸ by positivity
  have hnarrow : Decimal.width digits ≤ 400 + b := by
    rw [Decimal.width, Nat.length_toDigits_le_iff (by decide) (by omega), hdigits]
    calc x.significand * 2 ^ a * 5 ^ b
        ≤ 2 ^ 53 * 2 ^ 971 * 10 ^ b := by
          have := x.significand_lt
          gcongr <;> omega
      _ < 10 ^ 400 * 10 ^ b := by
          gcongr
          decide +kernel
      _ = 10 ^ (400 + b) := (pow_add 10 400 b).symm
  have hwide : b - 401 < Decimal.width digits := by
    rw [← Nat.pow_lt_pow_iff_right (a := 10) (by decide)]
    refine lt_of_le_of_lt ?_ (Decimal.lt_pow_width digits)
    calc 10 ^ (b - 401) ≤ 5 ^ b := by
          rcases Nat.le_total b 401 with hb401 | hb401
          · rw [Nat.sub_eq_zero_of_le hb401, pow_zero]
            exact Nat.one_le_pow _ _ (by decide)
          · obtain ⟨j, rfl⟩ := Nat.exists_eq_add_of_le hb401
            have htwos : 2 ^ j ≤ 5 ^ 401 := calc
              2 ^ j ≤ 2 ^ 673 := Nat.pow_le_pow_right (by decide) (by omega)
              _ ≤ 5 ^ 401 := by decide +kernel
            rw [Nat.add_sub_cancel_left, pow_add, show (10 : ℕ) = 2 * 5 by rfl, mul_pow]
            exact Nat.mul_le_mul_right _ htwos
      _ ≤ digits := by
          rw [hdigits]
          exact Nat.le_mul_of_pos_left _ (by positivity)
  have hvalue : digits * 10 ^ (-(b : ℤ)).toNat * x.ratio.2 = x.ratio.1 * 10 ^ (- -(b : ℤ)).toNat := by
    have hzero : (-(b : ℤ)).toNat = 0 := by omega
    simp only [ratio, ← ha, ← hb, Nat.shiftLeft_eq, one_mul, hzero, Int.neg_neg, Int.toNat_natCast, pow_zero,
      Nat.mul_one, hdigits]
    rw [show (10 : ℕ) = 5 * 2 by rfl, mul_pow]
    ring
  have hread := ofRatio?_eq_some x h (by positivity) hvalue
  rw [← hdigits, ofDecimal?, if_neg hdigitsPos.ne', if_neg (by dsimp only; omega), if_neg (by dsimp only; omega)]
  simpa only [Decimal.ratio, Nat.pow_eq] using hread

/-- **The shortest decimal of a number is read back.** -/
theorem ofDecimal?_shortest (x : Binary64) : ofDecimal? x.negative x.shortest = some x := by
  by_cases hzero : x.magnitude = 0
  · obtain ⟨negative, magnitude, hfinite⟩ := x
    obtain rfl : magnitude = 0 := hzero
    rfl
  · simp only [shortest, if_neg hzero, ofDecimal?_trim]
    generalize (List.range 17).flatMap _ = tries
    cases hfind : tries.find? x.readsBack with
    | none => exact ofDecimal?_exact x hzero
    | some d => exact of_decide_eq_true (List.find?_some hfind : x.readsBack d = true)

end Binary64

/-! ## Rounding keeps the order -/

/-- Rounding to a natural keeps the order of the dividends. -/
theorem divHalfEven_le_divHalfEven {n n' : ℕ} (d : ℕ) (h : n ≤ n') : divHalfEven n d ≤ divHalfEven n' d := by
  have hquotient : n / d ≤ n' / d := Nat.div_le_div_right h
  have hn := Nat.div_add_mod n d
  have hn' := Nat.div_add_mod n' d
  rcases Nat.eq_or_lt_of_le hquotient with hsame | hless
  · -- Of two dividends with one quotient the larger has the larger remainder.
    have hremainder : n % d ≤ n' % d := by
      rw [hsame] at hn
      omega
    simp only [divHalfEven, hsame]
    split_ifs <;> omega
  · simp only [divHalfEven]
    split_ifs <;> omega

section Grid

variable {num num' den : ℕ}

/-- The exponent of the grid on which a quotient is rounded. -/
def gridExponent (num den : ℕ) : ℤ := max (-1074) (floorLog2 num den - 52)

/-- The number of steps of the grid that a quotient is rounded to. -/
def gridSteps (num den : ℕ) : ℕ :=
  divHalfEven (num <<< (-gridExponent num den).toNat) (den <<< (gridExponent num den).toNat)

theorem roundRatio_eq_steps (hnum : 0 < num) :
    roundRatio num den = (gridExponent num den + 1074).toNat * 2 ^ 52 + gridSteps num den := by
  rw [roundRatio, if_neg hnum.ne', ← Nat.shiftLeft_eq]
  rfl

/-- The steps of a grid that fit into a quotient. -/
theorem le_quotient_iff (hden : 0 < den) (k : ℕ) (q : ℤ) :
    k ≤ num <<< (-q).toNat / den <<< q.toNat ↔ (k : ℚ) * 2 ^ q ≤ num / den := by
  have hshifted : 0 < den <<< q.toNat := by
    rw [Nat.shiftLeft_eq]
    positivity
  have hden' : (0 : ℚ) < den := by exact_mod_cast hden
  have hscaled : k * den <<< q.toNat = (k * den) <<< q.toNat := by
    rw [Nat.shiftLeft_eq, Nat.shiftLeft_eq, Nat.mul_assoc]
  rw [Nat.le_div_iff_mul_le hshifted, hscaled, shiftLeft_le_shiftLeft_iff, le_div_iff₀ hden', Nat.cast_mul,
    mul_right_comm]

variable (hnum : 0 < num) (hden : 0 < den)
include hnum hden

/-- The steps fit into 53 bits, or are just one more. -/
theorem gridSteps_le : gridSteps num den ≤ 2 ^ 53 := by
  have hpos : (0 : ℚ) < num / den := by positivity
  have hupper : ¬2 ^ 53 ≤ num <<< (-gridExponent num den).toNat / den <<< (gridExponent num den).toNat := by
    rw [le_quotient_iff hden, not_le]
    calc (num : ℚ) / den < 2 ^ (Int.log 2 ((num : ℚ) / den) + 1) := Int.lt_zpow_succ_log_self Nat.one_lt_two _
      _ ≤ 2 ^ (53 + gridExponent num den) := by
        refine zpow_le_zpow_right₀ one_le_two ?_
        rw [gridExponent, floorLog2_eq_log hnum hden]
        omega
      _ = ((2 ^ 53 : ℕ) : ℚ) * 2 ^ gridExponent num den := by
        rw [zpow_add₀ two_ne_zero]
        norm_num
  rw [gridSteps, divHalfEven]
  split_ifs <;> omega

/-- Above the lowest grid the steps fill 53 bits. -/
theorem le_gridSteps (hgrid : -1074 < gridExponent num den) : 2 ^ 52 ≤ gridSteps num den := by
  have hpos : (0 : ℚ) < num / den := by positivity
  have hlower : 2 ^ 52 ≤ num <<< (-gridExponent num den).toNat / den <<< (gridExponent num den).toNat := by
    rw [le_quotient_iff hden]
    calc ((2 ^ 52 : ℕ) : ℚ) * 2 ^ gridExponent num den = 2 ^ Int.log 2 ((num : ℚ) / den) := by
          have hexponent : Int.log 2 ((num : ℚ) / den) = 52 + gridExponent num den := by
            rw [gridExponent, floorLog2_eq_log hnum hden] at hgrid ⊢
            omega
          rw [hexponent, zpow_add₀ two_ne_zero]
          norm_num
      _ ≤ num / den := Int.zpow_log_le_self Nat.one_lt_two hpos
  rw [gridSteps, divHalfEven]
  split_ifs <;> omega

theorem gridExponent_le (h : num ≤ num') : gridExponent num den ≤ gridExponent num' den := by
  have hquotient : Int.log 2 ((num : ℚ) / den) ≤ Int.log 2 ((num' : ℚ) / den) :=
    Int.log_mono_right (by positivity) (by gcongr)
  rw [gridExponent, gridExponent, floorLog2_eq_log hnum hden, floorLog2_eq_log (hnum.trans_le h) hden]
  omega

end Grid

/-- **Rounding keeps the order of quotients.** -/
theorem roundRatio_le_roundRatio {num num' den : ℕ} (hden : 0 < den) (h : num ≤ num') :
    roundRatio num den ≤ roundRatio num' den := by
  rcases Nat.eq_zero_or_pos num with rfl | hnum
  · exact Nat.zero_le _
  have hnum' := hnum.trans_le h
  rw [roundRatio_eq_steps hnum, roundRatio_eq_steps hnum']
  rcases (gridExponent_le hnum hden h).eq_or_lt with hsame | hless
  · have hsteps : gridSteps num den ≤ gridSteps num' den := by
      rw [gridSteps, gridSteps, ← hsame]
      refine divHalfEven_le_divHalfEven _ ?_
      rw [Nat.shiftLeft_eq, Nat.shiftLeft_eq]
      exact Nat.mul_le_mul_right _ h
    rw [hsame]
    exact Nat.add_le_add_left hsteps _
  · -- The coarser grid begins where the finer one ends.
    have hlowest : -1074 ≤ gridExponent num den := le_max_left _ _
    have hfine := gridSteps_le hnum hden
    have hcoarse := le_gridSteps hnum' hden (hlowest.trans_lt hless)
    omega

namespace Binary64

/-- The magnitude of a rounded integer is at most that of the largest number. -/
theorem ofInt_parts (n : ℤ) : (ofInt n).negative = decide (n < 0) ∧
    (ofInt n).magnitude = min (roundRatio n.natAbs 1) ((2047 <<< 52) - 1) := by
  rw [ofInt, ofRatio?]
  split
  · rename_i hfinite
    exact ⟨rfl, (min_eq_left (Nat.le_sub_one_of_lt hfinite)).symm⟩
  · rename_i hinfinite
    exact ⟨rfl, (min_eq_right ((Nat.sub_le _ _).trans (not_lt.mp hinfinite))).symm⟩

/-- **Rounding keeps the order of integers.** -/
theorem key_ofInt_le_key_ofInt {m n : ℤ} (h : m ≤ n) : (ofInt m).key ≤ (ofInt n).key := by
  have hround : ∀ {j k : ℕ}, j ≤ k → roundRatio j 1 ≤ roundRatio k 1 := roundRatio_le_roundRatio Nat.one_pos
  simp only [key, ofInt_parts, decide_eq_true_eq]
  split_ifs with hm hn hn
  · have := hround (show n.natAbs ≤ m.natAbs by omega)
    omega
  · omega
  · omega
  · have := hround (show m.natAbs ≤ n.natAbs by omega)
    omega

end Binary64

end GuardedQuery
