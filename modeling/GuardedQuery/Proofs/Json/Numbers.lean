import GuardedQuery.Proofs.Binary64
import GuardedQuery.Proofs.Json.Lexing

/-!
# Written numbers are read back

The layout of a decimal is one of four: digits with zeros behind them, a point among the digits, zeros in front
of them, or scientific notation. Each is cut back into a whole part, a fraction and an exponent whose decimal
has the value of the one laid out. So every number is read back from its own text.

## Main definitions

* `Numeral.decimal`: the decimal that the parts of a number stand for.
* `Spells`: texts that are cut into given parts.

## Main statements

* `Json.writes_write`: a laid out decimal spells a number of its value.
* `Json.readsBack`: every number is read back.
* `Value.legible_of_wellFormed`: every value that a record can hold is read back.
-/

namespace GuardedQuery

namespace Json

/-! ## The value of digits -/

theorem digitsValue_append (as bs : List Char) :
    digitsValue (as ++ bs) = digitsValue as * 10 ^ bs.length + digitsValue bs := by
  induction bs using List.reverseRecOn with
  | nil => simp [digitsValue]
  | append_singleton bs c ih =>
    have hlast : ∀ cs : List Char, digitsValue (cs ++ [c]) = 10 * digitsValue cs + (c.toNat - 48) := by
      intro cs
      simp [digitsValue]
    rw [← List.append_assoc, hlast, hlast, ih, List.length_append, List.length_singleton, pow_succ]
    ring

theorem digitsValue_replicate_zero (k : ℕ) : digitsValue (List.replicate k '0') = 0 := by
  induction k with
  | zero => rfl
  | succ k ih =>
    rw [List.replicate_succ', digitsValue_append, ih]
    rfl

/-! ## The parts of a number -/

/-- The decimal that the parts of a number stand for. -/
def Numeral.decimal (n : Numeral) : Decimal where
  digits := digitsValue (n.whole ++ n.fraction.getD [])
  exponent :=
    (match n.exponent with
      | none => 0
      | some (minus, digits) => if minus then -digitsValue digits else digitsValue digits) -
    (n.fraction.getD []).length

/-- A number with a fraction or an exponent is no integer. -/
theorem Numeral.token_of_marked {n : Numeral} (h : n.fraction.isSome ∨ n.exponent.isSome) {x : Binary64}
    (hread : Binary64.ofDecimal? n.negative n.decimal = some x) : n.token = .float x := by
  have hwhole : (n.fraction.isNone && n.exponent.isNone) = false := by
    rcases h with h | h
    · rw [Option.isNone_eq_false_iff.mpr h, Bool.false_and]
    · rw [Option.isNone_eq_false_iff.mpr h, Bool.and_false]
  obtain ⟨negative, whole, fraction, _ | ⟨minus, digits⟩⟩ := n
  all_goals
    simp only [decimal] at hread
    simp only [Numeral.token, hwhole, Bool.false_and, Bool.false_eq_true, if_false, hread]

/-- The characters begin with a digit and are cut into the given parts, a fraction or an exponent among them,
wherever the end of a value follows. -/
structure Spells (cs : List Char) (whole : List Char) (fraction : Option (List Char))
    (exponent : Option (Bool × List Char)) : Prop where
  /-- The first character is a digit. -/
  digit : ∃ c rest, cs = c :: rest ∧ c.isDigit = true
  /-- The number is no integer. -/
  marked : fraction.isSome ∨ exponent.isSome
  /-- The parts follow one another. -/
  parts : ∀ r, Ends r → ∃ cs₁ cs₂, whole? (cs ++ r) = some (whole, cs₁) ∧
    fraction? cs₁ = some (fraction, cs₂) ∧ exponent? cs₂ = some (exponent, r)

theorem whole?_digits {digits r : List Char} (hdigits : ∀ c ∈ digits, c.isDigit = true) (hne : digits ≠ [])
    (hlead : digits.head? ≠ some '0') (hr : ∀ c, r.head? = some c → c.isDigit = false) :
    whole? (digits ++ r) = some (digits, r) := by
  obtain ⟨c, others, rfl⟩ := List.exists_cons_of_ne_nil hne
  have hspan := spanDigits_append_of_head hdigits hr
  unfold whole?
  split
  · rename_i hcons
    exact absurd (congrArg some (List.cons.inj hcons).1) hlead
  · rw [hspan]

theorem fraction?_point {digits r : List Char} (hdigits : ∀ c ∈ digits, c.isDigit = true) (hne : digits ≠ [])
    (hr : ∀ c, r.head? = some c → c.isDigit = false) : fraction? ('.' :: (digits ++ r)) = some (some digits, r) := by
  obtain ⟨c, others, rfl⟩ := List.exists_cons_of_ne_nil hne
  rw [fraction?, spanDigits_append_of_head hdigits hr]

theorem exponent?_letter (minus : Bool) {digits r : List Char} (hdigits : ∀ c ∈ digits, c.isDigit = true)
    (hne : digits ≠ []) (hr : Ends r) :
    exponent? ('e' :: (if minus then '-' else '+') :: (digits ++ r)) = some (some (minus, digits), r) := by
  obtain ⟨c, others, rfl⟩ := List.exists_cons_of_ne_nil hne
  have hspan := spanDigits_append hdigits hr
  rw [List.cons_append] at hspan ⊢
  cases minus <;> simp [exponent?, hspan]

/-- Spelled parts with a sign before them are a number. -/
theorem Spells.numeral? {cs whole : List Char} {fraction : Option (List Char)} {exponent : Option (Bool × List Char)}
    (h : Spells cs whole fraction exponent) (negative : Bool) {r : List Char} (hr : Ends r) :
    numeral? ((if negative then ['-'] else []) ++ cs ++ r) = some ({ negative, whole, fraction, exponent }, r) := by
  obtain ⟨cs₁, cs₂, hwhole, hfraction, hexponent⟩ := h.parts r hr
  cases negative with
  | true => simp [Json.numeral?, hwhole, hfraction, hexponent]
  | false =>
    obtain ⟨c, rest, rfl, hc⟩ := h.digit
    have hsign : c ≠ '-' := by
      rintro rfl
      exact absurd hc (by decide)
    rw [List.cons_append] at hwhole
    simp [Json.numeral?, hsign, hwhole, hfraction, hexponent]

/-! ## The four layouts -/

/-- The characters spell a number with the value of the decimal. -/
def Writes (cs : List Char) (d : Decimal) : Prop :=
  ∃ whole fraction exponent, Spells cs whole fraction exponent ∧
    ∀ negative, Binary64.ofDecimal? negative (Numeral.decimal { negative, whole, fraction, exponent }) =
      Binary64.ofDecimal? negative d

section Layouts

variable {digits : List Char} (hdigits : ∀ c ∈ digits, c.isDigit = true) (hne : digits ≠ [])
include hdigits hne

theorem exists_digit (rest : List Char) : ∃ c others, digits ++ rest = c :: others ∧ c.isDigit = true := by
  obtain ⟨c, others, rfl⟩ := List.exists_cons_of_ne_nil hne
  exact ⟨c, others ++ rest, rfl, hdigits c List.mem_cons_self⟩

/-- Digits, a point and digits. -/
theorem spells_point {fraction : List Char} (hlead : digits.head? ≠ some '0')
    (hfraction : ∀ c ∈ fraction, c.isDigit = true) (hfractionNe : fraction ≠ []) :
    Spells (digits ++ '.' :: fraction) digits (some fraction) none where
  digit := exists_digit hdigits hne _
  marked := .inl rfl
  parts r hr := by
    refine ⟨'.' :: (fraction ++ r), r, ?_, ?_, exponent?_of_ends hr⟩
    · rw [List.append_assoc]
      exact whole?_digits hdigits hne hlead (by rintro c ⟨⟩; rfl)
    · exact fraction?_point hfraction hfractionNe fun _ => isDigit_of_ends hr

/-- A zero, a point and digits. -/
theorem spells_zero_point : Spells ('0' :: '.' :: digits) ['0'] (some digits) none where
  digit := ⟨'0', _, rfl, rfl⟩
  marked := .inl rfl
  parts r hr :=
    ⟨'.' :: (digits ++ r), r, rfl, fraction?_point hdigits hne fun _ => isDigit_of_ends hr, exponent?_of_ends hr⟩

/-- A whole number keeps a zero after the point. -/
theorem writes_zeros (hlead : digits.head? ≠ some '0') (e : ℕ) :
    Writes (digits ++ List.replicate e '0' ++ ['.', '0']) { digits := digitsValue digits, exponent := e } := by
  refine ⟨digits ++ List.replicate e '0', some ['0'], none,
    spells_point ?_ (by simp [hne]) ?_ (List.forall_mem_singleton.mpr rfl) (List.cons_ne_nil _ _), ?_⟩
  · intro c hc
    rcases List.mem_append.mp hc with hc | hc
    · exact hdigits c hc
    · rw [List.eq_of_mem_replicate hc]
      rfl
  · rwa [List.head?_append_of_ne_nil _ hne]
  · intro negative
    have hscaled : digitsValue (digits ++ List.replicate e '0' ++ ['0']) = digitsValue digits * 10 ^ (e + 1) := by
      have hzeros : List.replicate e '0' ++ ['0'] = List.replicate (e + 1) '0' := List.replicate_succ'.symm
      rw [List.append_assoc, hzeros, digitsValue_append, digitsValue_replicate_zero, List.length_replicate,
        Nat.add_zero]
    have hshift : -1 + ((e + 1 : ℕ) : ℤ) = e := by omega
    simp only [Numeral.decimal, Option.getD_some, List.length_singleton, hscaled, Nat.cast_one, zero_sub]
    rw [Binary64.ofDecimal?_mul_pow, hshift]

/-- A point stands among the digits. -/
theorem writes_point {fraction : List Char} (hlead : digits.head? ≠ some '0')
    (hfraction : ∀ c ∈ fraction, c.isDigit = true) (hfractionNe : fraction ≠ []) :
    Writes (digits ++ '.' :: fraction)
      { digits := digitsValue (digits ++ fraction), exponent := -(fraction.length : ℤ) } := by
  refine ⟨digits, some fraction, none, spells_point hdigits hne hlead hfraction hfractionNe, ?_⟩
  intro negative
  simp only [Numeral.decimal, Option.getD_some, zero_sub]

/-- Zeros stand in front of the digits. -/
theorem writes_leading_zeros (k : ℕ) :
    Writes ('0' :: '.' :: List.replicate k '0' ++ digits)
      { digits := digitsValue digits, exponent := -((k : ℤ) + digits.length) } := by
  have hfraction : ∀ c ∈ List.replicate k '0' ++ digits, c.isDigit = true := by
    intro c hc
    rcases List.mem_append.mp hc with hc | hc
    · rw [List.eq_of_mem_replicate hc]
      rfl
    · exact hdigits c hc
  refine ⟨['0'], some (List.replicate k '0' ++ digits), none, spells_zero_point hfraction (by simp [hne]), ?_⟩
  intro negative
  have hvalue : digitsValue (['0'] ++ (List.replicate k '0' ++ digits)) = digitsValue digits := by
    rw [digitsValue_append, digitsValue_append, digitsValue_replicate_zero]
    simp [digitsValue]
  simp only [Numeral.decimal, Option.getD_some, hvalue, zero_sub, List.length_append, List.length_replicate,
    Nat.cast_add]

/-- Scientific notation, `digits` being those of the exponent. -/
theorem writes_scientific {c : Char} (hc : c.isDigit = true) (hlead : c ≠ '0') {fraction : List Char}
    (hfraction : ∀ c ∈ fraction, c.isDigit = true) (minus : Bool) :
    Writes ((match c :: fraction with
        | [d] => [d]
        | d :: rest => d :: '.' :: rest
        | [] => []) ++ 'e' :: (if minus then '-' else '+') :: digits)
      { digits := digitsValue (c :: fraction)
        exponent := (if minus then -(digitsValue digits : ℤ) else digitsValue digits) - fraction.length } := by
  have hwhole : ∀ d r, d.isDigit = false → whole? ([c] ++ d :: r) = some ([c], d :: r) := by
    intro d r hd
    exact whole?_digits (by simpa using hc) (by simp) (by simpa using hlead) (by rintro _ ⟨⟩; exact hd)
  cases hcases : fraction with
  | nil =>
    refine ⟨[c], none, some (minus, digits), ⟨⟨c, _, rfl, hc⟩, .inr rfl, ?_⟩, ?_⟩
    · intro r hr
      exact ⟨'e' :: (if minus then '-' else '+') :: (digits ++ r), _, hwhole 'e' _ rfl, rfl,
        exponent?_letter minus hdigits hne hr⟩
    · intro negative
      rfl
  | cons d rest =>
    refine ⟨[c], some (d :: rest), some (minus, digits), ⟨⟨c, _, rfl, hc⟩, .inl rfl, ?_⟩, ?_⟩
    · intro r hr
      have htail : fraction? ('.' :: (d :: rest ++ 'e' :: (if minus then '-' else '+') :: (digits ++ r))) =
          some (some (d :: rest), 'e' :: (if minus then '-' else '+') :: (digits ++ r)) :=
        fraction?_point (hcases ▸ hfraction) (by simp) (by rintro _ ⟨⟩; rfl)
      refine ⟨_, _, ?_, htail, exponent?_letter minus hdigits hne hr⟩
      have hsplit := hwhole '.' (d :: rest ++ 'e' :: (if minus then '-' else '+') :: (digits ++ r)) rfl
      simpa using hsplit
    · intro negative
      rfl

end Layouts

/-- **A laid out decimal spells a number of its value.** -/
theorem writes_write {d : Decimal} (hd : d.digits = 0 → d.exponent = 0) :
    Writes (Layout.document.write d).toList d := by
  obtain ⟨digits, hdigits⟩ : ∃ digits, digits = Nat.toDigits 10 d.digits := ⟨_, rfl⟩
  obtain ⟨lead, hlead⟩ : ∃ lead : ℤ, lead = d.exponent + digits.length - 1 := ⟨_, rfl⟩
  have hall : ∀ c ∈ digits, c.isDigit = true := by
    rw [hdigits]
    exact fun c hc => Nat.isDigit_of_mem_toDigits (by decide) (by decide) hc
  have hne : digits ≠ [] := hdigits ▸ Nat.toDigits_ne_nil
  have hlength : 0 < digits.length := List.length_pos_iff.mpr hne
  have hvalue : digitsValue digits = d.digits := hdigits ▸ digitsValue_toDigits d.digits
  have hhead : d.digits ≠ 0 → digits.head? ≠ some '0' := fun h =>
    hdigits ▸ head?_toDigits_ne_zero (Nat.pos_of_ne_zero h)
  by_cases hzero : d.digits = 0
  · have hexponent := hd hzero
    obtain ⟨ds, e⟩ := d
    obtain rfl : ds = 0 := hzero
    obtain rfl : e = 0 := hexponent
    have htext : (Layout.document.write { digits := 0, exponent := 0 }).toList = ['0', '.', '0'] := by
      simp [Layout.write, Layout.document]
    have hvalue : digitsValue (['0'] ++ ['0']) = 0 := digitsValue_replicate_zero 2
    rw [htext]
    refine ⟨['0'], some ['0'], none,
      spells_zero_point (List.forall_mem_singleton.mpr rfl) (List.cons_ne_nil _ _), ?_⟩
    intro negative
    simp only [Binary64.ofDecimal?, Numeral.decimal, Option.getD_some, hvalue, if_true]
  simp only [Layout.write, ← hdigits, ← hlead]
  split
  · split
    · -- the digits with zeros behind them
      rename_i hexponent
      have hwrites := writes_zeros hall hne (hhead hzero) d.exponent.toNat
      rw [hvalue, Int.toNat_of_nonneg hexponent] at hwrites
      simpa [Layout.document] using hwrites
    · split
      · -- a point among the digits
        have hsplit : digits.take (lead.toNat + 1) ++ digits.drop (lead.toNat + 1) = digits :=
          List.take_append_drop _ _
        have hbefore : ∀ c ∈ digits.take (lead.toNat + 1), c.isDigit = true :=
          fun c hc => hall c (List.mem_of_mem_take hc)
        have hbehind : ∀ c ∈ digits.drop (lead.toNat + 1), c.isDigit = true :=
          fun c hc => hall c (List.mem_of_mem_drop hc)
        have hwrites := writes_point hbefore (by simp [hne]) (by simpa [List.head?_take] using hhead hzero) hbehind
          (by simp only [ne_eq, List.drop_eq_nil_iff]; omega)
        have hexponent : -((digits.drop (lead.toNat + 1)).length : ℤ) = d.exponent := by
          rw [List.length_drop]
          omega
        rw [hsplit, hvalue, hexponent] at hwrites
        simpa using hwrites
      · -- zeros in front of the digits
        have hwrites := writes_leading_zeros hall hne (-lead - 1).toNat
        have hexponent : -(((-lead - 1).toNat : ℤ) + digits.length) = d.exponent := by omega
        rw [hvalue, hexponent] at hwrites
        simpa using hwrites
  · obtain ⟨c, fraction, hcons⟩ := List.exists_cons_of_ne_nil hne
    rw [hcons] at hall hhead hvalue hlead ⊢
    have hleadDigits : ∀ c ∈ Nat.toDigits 10 lead.natAbs, c.isDigit = true :=
      fun c hc => Nat.isDigit_of_mem_toDigits (by decide) (by decide) hc
    have hwrites := writes_scientific hleadDigits Nat.toDigits_ne_nil
      (hall c List.mem_cons_self) (by simpa using hhead hzero) (fun d hd => hall d (List.mem_cons_of_mem _ hd))
      (decide (lead < 0))
    have hexponent : ((if decide (lead < 0) = true then -(lead.natAbs : ℤ) else lead.natAbs) -
        fraction.length) = d.exponent := by
      rw [List.length_cons] at hlead
      simp only [decide_eq_true_eq]
      split <;> omega
    rw [hvalue, digitsValue_toDigits, hexponent] at hwrites
    have hsign : (if lead < 0 then "-" else Layout.document.plus) =
        String.ofList [if decide (lead < 0) = true then '-' else '+'] := by
      simp only [decide_eq_true_eq]
      split <;> rfl
    have hletter : "e".toList = ['e'] := by decide
    rw [hsign]
    simp only [String.toList_append, String.toList_ofList, hletter, List.append_assoc, List.singleton_append]
    exact hwrites

/-! ## Numbers and values -/

theorem digits_shortest_eq_zero {x : Binary64} (h : x.shortest.digits = 0) : x.shortest.exponent = 0 := by
  by_cases hzero : x.magnitude = 0
  · simp only [Binary64.shortest, if_pos hzero]
  · have hread := Binary64.ofDecimal?_shortest x
    rw [Binary64.ofDecimal?, if_pos h, Option.some.injEq] at hread
    rw [← hread] at hzero
    exact absurd rfl hzero

/-- **Every number is read back from its own text.** -/
theorem readsBack (x : Binary64) : ReadsBack x := by
  intro r hr
  obtain ⟨whole, fraction, exponent, hspells, hvalue⟩ := writes_write (digits_shortest_eq_zero (x := x))
  have htext : x.toText.toList = (if x.negative then ['-'] else []) ++ (Layout.document.write x.shortest).toList := by
    rw [Binary64.toText, String.toList_append]
    cases x.negative <;> simp
  have hnumeral := hspells.numeral? x.negative hr
  have htoken : Numeral.token { negative := x.negative, whole, fraction, exponent } = .float x :=
    Numeral.token_of_marked hspells.marked ((hvalue x.negative).trans (Binary64.ofDecimal?_shortest x))
  obtain ⟨c, rest, hcons, hc⟩ := hspells.digit
  rw [htext, ← htoken]
  cases hnegative : x.negative with
  | true =>
    rw [hnegative] at hnumeral
    exact nextToken?_of_numeral (.inr rfl) hnumeral
  | false =>
    rw [hnegative, hcons] at hnumeral
    rw [hcons]
    exact nextToken?_of_numeral (.inl hc) hnumeral

end Json

namespace Value

mutual

/-- **Every well-formed value is read back from its own text.** -/
theorem legible_of_wellFormed : (v : Value) → v.WellFormed → v.Legible
  | null, _ | bool _, _ | string _, _ => trivial
  | int _, h => h
  | float x, _ => Json.readsBack x
  | array items, h => legibleItems_of_wellFormed items h
  | object ms, h => legibleMembers_of_wellFormed ms h.2

theorem legibleItems_of_wellFormed : (items : List Value) → WellFormedItems items → LegibleItems items
  | [], _ => trivial
  | v :: rest, h => ⟨legible_of_wellFormed v h.1, legibleItems_of_wellFormed rest h.2⟩

theorem legibleMembers_of_wellFormed : (ms : List (String × Value)) → WellFormedMembers ms → LegibleMembers ms
  | [], _ => trivial
  | (_, v) :: rest, h => ⟨legible_of_wellFormed v h.1, legibleMembers_of_wellFormed rest h.2⟩

end

end Value

end GuardedQuery
