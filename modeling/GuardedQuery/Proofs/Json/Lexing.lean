import GuardedQuery.Proofs.Json.Delimited

/-!
# The tokens of written values

The text of a value is cut into the tokens that the value consists of, as long as the end of a value follows
it. Integers must fit 64 bits, and other numbers must be read back from their own text.

## Main definitions

* `Value.tokens`: the tokens of a value.
* `Value.Legible`: values whose numbers are read back.

## Main statements

* `Value.tokensUpTo_chars`: the tokens of a value's text.
-/

namespace GuardedQuery

namespace Json

/-! ## Numbers -/

/-- Digits end at the first character that is none. -/
theorem spanDigits_append_of_head {digits r : List Char} (hdigits : ∀ c ∈ digits, c.isDigit = true)
    (hr : ∀ c, r.head? = some c → c.isDigit = false) : spanDigits (digits ++ r) = (digits, r) := by
  have hstop : r.takeWhile Char.isDigit = [] ∧ r.dropWhile Char.isDigit = r := by
    cases r with
    | nil => exact ⟨rfl, rfl⟩
    | cons c rest =>
      have hc := hr c rfl
      simp [hc]
  rw [spanDigits, List.takeWhile_append_of_pos hdigits, List.dropWhile_append_of_pos hdigits, hstop.1, hstop.2,
    List.append_nil]

/-- The end of a value is no digit. -/
theorem isDigit_of_ends {r : List Char} (hr : Ends r) {c : Char} (hc : r.head? = some c) : c.isDigit = false := by
  have hall : ∀ c ∈ closers, c.isDigit = false := by simp [closers]
  exact hall c (hr c hc)

theorem spanDigits_append {digits r : List Char} (hdigits : ∀ c ∈ digits, c.isDigit = true) (hr : Ends r) :
    spanDigits (digits ++ r) = (digits, r) :=
  spanDigits_append_of_head hdigits fun _ => isDigit_of_ends hr

theorem fraction?_of_ends {r : List Char} (hr : Ends r) : fraction? r = some (none, r) := by
  unfold fraction?
  split
  · have hdot := hr '.' rfl
    simp [closers] at hdot
  · rfl

theorem exponent?_of_ends {r : List Char} (hr : Ends r) : exponent? r = some (none, r) := by
  have hall : ∀ c ∈ closers, ¬(c = 'e' ∨ c = 'E') := by simp [closers]
  cases r with
  | nil => rfl
  | cons c rest => simp only [exponent?, if_neg (hall c (hr c rfl))]

/-- A positive number does not start with a zero. -/
theorem head?_toDigits_ne_zero {n : Nat} (h : 0 < n) : (Nat.toDigits 10 n).head? ≠ some '0' := by
  induction n using Nat.strongRecOn with
  | ind n ih =>
    by_cases hsmall : n < 10
    · have hall : ∀ n < 10, 0 < n → n.digitChar ≠ '0' := by decide
      rw [Nat.toDigits_of_lt_base hsmall]
      simpa using hall n hsmall h
    · have hlead := ih (n / 10) (by omega) (by omega)
      rw [Nat.toDigits_of_base_le (by decide) (by omega), List.head?_append_of_ne_nil _ Nat.toDigits_ne_nil]
      exact hlead

theorem whole?_toDigits (n : Nat) {r : List Char} (hr : Ends r) :
    whole? (Nat.toDigits 10 n ++ r) = some (Nat.toDigits 10 n, r) := by
  have hspan : spanDigits (Nat.toDigits 10 n ++ r) = (Nat.toDigits 10 n, r) :=
    spanDigits_append (fun c hc => Nat.isDigit_of_mem_toDigits (by decide) (by decide) hc) hr
  rcases Nat.eq_zero_or_pos n with rfl | hpos
  · rfl
  · have hlead := head?_toDigits_ne_zero hpos
    have hne : Nat.toDigits 10 n ≠ [] := Nat.toDigits_ne_nil
    unfold whole?
    split
    · rename_i rest hcons
      cases hdigits : Nat.toDigits 10 n with
      | nil => exact absurd hdigits hne
      | cons c others =>
        rw [hdigits] at hlead hcons
        simp at hlead hcons
        exact absurd hcons.1 hlead
    · rw [hspan]
      cases hdigits : Nat.toDigits 10 n with
      | nil => exact absurd hdigits hne
      | cons => rfl

theorem digitsValue_toDigits (n : Nat) : digitsValue (Nat.toDigits 10 n) = n := Nat.ofDigitChars_ten_toDigits

theorem numeral?_toDigits (n : Nat) {r : List Char} (hr : Ends r) :
    numeral? (Nat.toDigits 10 n ++ r) =
      some ({ negative := false, whole := Nat.toDigits 10 n, fraction := none, exponent := none }, r) := by
  have hwhole := whole?_toDigits n hr
  obtain ⟨c, others, hcons⟩ := List.exists_cons_of_ne_nil (Nat.toDigits_ne_nil (n := n) (b := 10))
  have hc : c.isDigit = true :=
    Nat.isDigit_of_mem_toDigits (by decide) (by decide) (hcons ▸ List.mem_cons_self)
  have hsign : c ≠ '-' := by
    intro hminus
    rw [hminus] at hc
    exact absurd hc (by decide)
  rw [hcons, List.cons_append] at hwhole ⊢
  simp [numeral?, hsign, hwhole, fraction?_of_ends hr, exponent?_of_ends hr]

theorem numeral?_minus_toDigits (n : Nat) {r : List Char} (hr : Ends r) :
    numeral? ('-' :: Nat.toDigits 10 n ++ r) =
      some ({ negative := true, whole := Nat.toDigits 10 n, fraction := none, exponent := none }, r) := by
  simp [numeral?, whole?_toDigits n hr, fraction?_of_ends hr, exponent?_of_ends hr]

/-- A character that begins a number begins no other token. -/
theorem nextToken?_of_numeral {c : Char} {cs r : List Char} {n : Numeral}
    (hc : c.isDigit = true ∨ c = '-') (h : numeral? (c :: cs) = some (n, r)) :
    nextToken? (c :: cs) = some (n.token, r) := by
  have hother : ∀ d : Char, ¬(d.isDigit = true ∨ d = '-') → c ≠ d := by
    rintro d hd rfl
    exact hd hc
  have hfixed : fixedToken? (c :: cs) = none := by
    unfold fixedToken?
    split <;> first
      | rfl
      | (rename_i heq
         exact absurd (List.cons.inj heq).1 (hother _ (by decide)))
  unfold nextToken?
  rw [hfixed]
  dsimp only
  split
  · rename_i heq
    exact absurd (List.cons.inj heq).1 (hother _ (by decide))
  · simp [h]

/-- Integers of 64 bits are read back. -/
theorem nextToken?_int {n : Int} (hleast : int64Min ≤ n) (hgreatest : n ≤ uint64Max) {r : List Char}
    (hr : Ends r) : nextToken? ((toString n).toList ++ r) = some (.int n, r) := by
  rw [Int.toString_eq_repr, Int.repr_eq_if]
  by_cases hsign : 0 ≤ n
  · rw [if_pos hsign, Nat.toList_repr]
    have hnumeral := numeral?_toDigits n.toNat hr
    have hvalue := digitsValue_toDigits n.toNat
    obtain ⟨c, others, hcons⟩ := List.exists_cons_of_ne_nil (Nat.toDigits_ne_nil (n := n.toNat) (b := 10))
    have hc : c.isDigit = true :=
      Nat.isDigit_of_mem_toDigits (by decide) (by decide) (hcons ▸ List.mem_cons_self)
    have hbound : n.toNat ≤ 0xFFFFFFFFFFFFFFFF := by
      rw [uint64Max] at hgreatest
      omega
    rw [hcons] at hnumeral hvalue ⊢
    rw [List.cons_append] at hnumeral ⊢
    rw [nextToken?_of_numeral (.inl hc) hnumeral]
    simp [Numeral.token, hvalue, hbound, hsign]
  · rw [if_neg hsign, String.toList_append, Nat.toList_repr]
    have hnumeral := numeral?_minus_toDigits (-n).toNat hr
    have hvalue := digitsValue_toDigits (-n).toNat
    have hminus : "-".toList = ['-'] := by decide
    have hbound : (-n).toNat ≤ 0x8000000000000000 := by
      rw [int64Min] at hleast
      omega
    have hpos : 0 < (-n).toNat := by omega
    have hback : -((-n).toNat : Int) = n := by omega
    rw [hminus, List.singleton_append]
    rw [List.cons_append] at hnumeral ⊢
    rw [nextToken?_of_numeral (.inr rfl) hnumeral]
    simp only [Numeral.token, hvalue, hbound, hpos, hback, Option.isNone_none, Bool.not_true, Bool.and_false,
      Bool.false_and, Bool.false_eq_true, if_false, Bool.and_self, decide_true, if_true]

/-- Numbers that are read back from their own text. -/
def ReadsBack (x : Binary64) : Prop :=
  ∀ r, Ends r → nextToken? (x.toText.toList ++ r) = some (.float x, r)

/-! ## Other tokens -/

/-- A quoted text is read back, whatever follows it. -/
theorem nextToken?_quoteChars (s : String) (r : List Char) :
    nextToken? (quoteChars s ++ r) = some (.string (some s), r) := by
  have hquoted : quoteChars s ++ r = '"' :: (s.toList.flatMap escapeChar ++ '"' :: r) := by
    simp [quoteChars]
  have hfixed : ∀ cs, fixedToken? ('"' :: cs) = none := fun _ => rfl
  rw [hquoted, nextToken?, hfixed]
  simp [quotedPieces_escape, joinPieces_pieces, String.ofList_toList]

/-- A token is cut off the characters that begin with it. -/
theorem tokensUpTo_succ {cs r : List Char} {t : Token} (hstart : ∀ c, cs.head? = some c → isSpace c = false)
    (h : nextToken? cs = some (t, r)) (fuel : Nat) : tokensUpTo (fuel + 1) cs = t :: tokensUpTo fuel r := by
  cases cs with
  | nil => simp [nextToken?, fixedToken?, numeral?, whole?, spanDigits] at h
  | cons c rest =>
    have hc := hstart c rfl
    simp [tokensUpTo, hc, h]

/-- A mark is cut off the characters that follow it. -/
theorem tokensUpTo_mark {c : Char} {t : Token} (hspace : isSpace c = false)
    (h : ∀ r, fixedToken? (c :: r) = some (t, r)) (fuel : Nat) (r : List Char) :
    tokensUpTo (fuel + 1) (c :: r) = t :: tokensUpTo fuel r := by
  have hnext : nextToken? (c :: r) = some (t, r) := by
    unfold nextToken?
    rw [h]
  refine tokensUpTo_succ ?_ hnext fuel
  intro d hd
  obtain rfl := Option.some.inj hd
  exact hspace

end Json

namespace Value

open Json (Ends Token tokensUpTo)

/-! ## The tokens of a value -/

mutual

/-- The tokens of a value. -/
def tokens : Value → List Token
  | null => [.null]
  | bool b => [.bool b]
  | int n => [.int n]
  | float x => [.float x]
  | string s => [.string (some s)]
  | array items => .openArray :: itemTokens items
  | object ms => .openObject :: memberTokens ms

/-- The tokens of the items of an array, up to its end. -/
def itemTokens : List Value → List Token
  | [] => [.closeArray]
  | [v] => tokens v ++ [.closeArray]
  | v :: rest => tokens v ++ .comma :: itemTokens rest

/-- The tokens of the members of an object, up to its end. -/
def memberTokens : List (String × Value) → List Token
  | [] => [.closeObject]
  | [(k, v)] => .string (some k) :: .colon :: (tokens v ++ [.closeObject])
  | (k, v) :: rest => .string (some k) :: .colon :: (tokens v ++ .comma :: memberTokens rest)

end

mutual

/-- Values whose numbers are read back. -/
def Legible : Value → Prop
  | int n => int64Min ≤ n ∧ n ≤ uint64Max
  | float x => Json.ReadsBack x
  | array items => LegibleItems items
  | object ms => LegibleMembers ms
  | _ => True

/-- Every item is legible. -/
def LegibleItems : List Value → Prop
  | [] => True
  | v :: rest => Legible v ∧ LegibleItems rest

/-- Every member's value is legible. -/
def LegibleMembers : List (String × Value) → Prop
  | [] => True
  | (_, v) :: rest => Legible v ∧ LegibleMembers rest

end

/-- The tokens of what follows an item of an array. -/
def itemTailTokens : List Value → List Token
  | [] => [.closeArray]
  | v :: rest => .comma :: itemTokens (v :: rest)

/-- The tokens of what follows a member of an object. -/
def memberTailTokens : List (String × Value) → List Token
  | [] => [.closeObject]
  | m :: rest => .comma :: memberTokens (m :: rest)

theorem itemTokens_cons (v : Value) (rest : List Value) :
    itemTokens (v :: rest) = v.tokens ++ itemTailTokens rest := by
  cases rest <;> simp [itemTokens, itemTailTokens]

theorem memberTokens_cons (k : String) (v : Value) (rest : List (String × Value)) :
    memberTokens ((k, v) :: rest) =
      .string (some k) :: .colon :: (v.tokens ++ memberTailTokens rest) := by
  cases rest <;> simp [memberTokens, memberTailTokens]

/-- No value starts with white space. -/
theorem isSpace_head_chars {v : Value} {r : List Char} {c : Char} (h : (v.chars ++ r).head? = some c) :
    Json.isSpace c = false := by
  rw [head?_chars_append] at h
  cases hopener : v.opener? with
  | none =>
    have hblank : ∀ c, Json.isSpace c = true → c ∈ Json.marks := by
      intro c hc
      simp only [Json.isSpace, Bool.or_eq_true, beq_iff_eq] at hc
      rcases hc with ((rfl | rfl) | rfl) | rfl <;> decide
    have hbare := (bare_of_opener?_eq_none hopener).2 c (List.mem_of_mem_head? h)
    exact Bool.eq_false_iff.mpr fun hspace => hbare (hblank c hspace)
  | some d =>
    rw [(head?_of_opener? hopener).1] at h
    obtain rfl := Option.some.inj h
    cases v <;> simp [opener?] at hopener <;> subst hopener <;> decide

/-- A value of one token that is read back is cut off the characters that begin with it. -/
theorem tokensUpTo_scalar {v : Value} {t : Token} {r : List Char}
    (h : Json.nextToken? (v.chars ++ r) = some (t, r)) (fuel : Nat) :
    tokensUpTo (fuel + 1) (v.chars ++ r) = t :: tokensUpTo fuel r :=
  Json.tokensUpTo_succ (fun _ => isSpace_head_chars) h fuel

mutual

/-- **The text of a value is cut into its tokens**, as long as the end of a value follows. -/
theorem tokensUpTo_chars (v : Value) (hv : v.Legible) (fuel : Nat) {r : List Char} (hr : Ends r) :
    tokensUpTo (v.tokens.length + fuel) (v.chars ++ r) = v.tokens ++ tokensUpTo fuel r := by
  rw [Nat.add_comm]
  cases v with
  | null => exact tokensUpTo_scalar (v := .null) rfl fuel
  | bool b => cases b <;> exact tokensUpTo_scalar (v := .bool _) rfl fuel
  | int n => exact tokensUpTo_scalar (v := .int n) (Json.nextToken?_int hv.1 hv.2 hr) fuel
  | float x => exact tokensUpTo_scalar (v := .float x) (hv r hr) fuel
  | string s => exact tokensUpTo_scalar (v := .string s) (Json.nextToken?_quoteChars s r) fuel
  | array items =>
    have hitems := tokensUpTo_itemChars items hv fuel r
    rw [Nat.add_comm] at hitems
    simp only [tokens, chars, List.length_cons, List.cons_append, ← Nat.add_assoc]
    rw [Json.tokensUpTo_mark (by decide) (fun _ => rfl), hitems]
  | object ms =>
    have hmembers := tokensUpTo_memberChars ms hv fuel r
    rw [Nat.add_comm] at hmembers
    simp only [tokens, chars, List.length_cons, List.cons_append, ← Nat.add_assoc]
    rw [Json.tokensUpTo_mark (by decide) (fun _ => rfl), hmembers]

/-- The text of the items of an array is cut into their tokens. -/
theorem tokensUpTo_itemChars (items : List Value) (hitems : LegibleItems items) (fuel : Nat)
    (r : List Char) :
    tokensUpTo ((itemTokens items).length + fuel) (itemChars items ++ r) =
      itemTokens items ++ tokensUpTo fuel r := by
  cases items with
  | nil =>
    rw [Nat.add_comm]
    exact Json.tokensUpTo_mark (by decide) (fun _ => rfl) fuel r
  | cons v rest =>
    have htail : tokensUpTo ((itemTailTokens rest).length + fuel) (itemTail rest ++ r) =
        itemTailTokens rest ++ tokensUpTo fuel r := by
      rw [Nat.add_comm]
      cases rest with
      | nil => exact Json.tokensUpTo_mark (by decide) (fun _ => rfl) fuel r
      | cons w others =>
        have hothers := tokensUpTo_itemChars (w :: others) hitems.2 fuel r
        rw [Nat.add_comm] at hothers
        simp only [itemTailTokens, itemTail, List.length_cons, List.cons_append, ← Nat.add_assoc]
        rw [Json.tokensUpTo_mark (by decide) (fun _ => rfl), hothers]
    rw [itemTokens_cons, itemChars_cons, List.length_append, List.append_assoc, Nat.add_assoc,
      tokensUpTo_chars v hitems.1 _ (ends_itemTail rest r), htail, List.append_assoc]

/-- The text of the members of an object is cut into their tokens. -/
theorem tokensUpTo_memberChars (ms : List (String × Value)) (hms : LegibleMembers ms) (fuel : Nat)
    (r : List Char) :
    tokensUpTo ((memberTokens ms).length + fuel) (memberChars ms ++ r) =
      memberTokens ms ++ tokensUpTo fuel r := by
  cases ms with
  | nil =>
    rw [Nat.add_comm]
    exact Json.tokensUpTo_mark (by decide) (fun _ => rfl) fuel r
  | cons m rest =>
    obtain ⟨k, v⟩ := m
    have htail : tokensUpTo ((memberTailTokens rest).length + fuel) (memberTail rest ++ r) =
        memberTailTokens rest ++ tokensUpTo fuel r := by
      rw [Nat.add_comm]
      cases rest with
      | nil => exact Json.tokensUpTo_mark (by decide) (fun _ => rfl) fuel r
      | cons m' others =>
        have hothers := tokensUpTo_memberChars (m' :: others) hms.2 fuel r
        rw [Nat.add_comm] at hothers
        simp only [memberTailTokens, memberTail, List.length_cons, List.cons_append, ← Nat.add_assoc]
        rw [Json.tokensUpTo_mark (by decide) (fun _ => rfl), hothers]
    have hname : ∀ cs, ∀ c, (Json.quoteChars k ++ cs).head? = some c → Json.isSpace c = false := by
      intro cs c hc
      obtain rfl : '"' = c := by simpa [Json.quoteChars] using hc
      rfl
    have hlength : (memberTokens ((k, v) :: rest)).length + fuel =
        v.tokens.length + ((memberTailTokens rest).length + fuel) + 1 + 1 := by
      rw [memberTokens_cons]
      simp only [List.length_cons, List.length_append]
      omega
    rw [hlength, memberTokens_cons, memberChars_cons]
    simp only [List.append_assoc, List.cons_append]
    rw [Json.tokensUpTo_succ (hname _) (Json.nextToken?_quoteChars k _),
      Json.tokensUpTo_mark (by decide) (fun _ => rfl), tokensUpTo_chars v hms.1 _ (ends_memberTail rest r),
      htail]

end

mutual

/-- Every token of a value takes a character at least. -/
theorem length_tokens_le (v : Value) : v.tokens.length ≤ v.chars.length := by
  have hpos : 0 < v.chars.length := by
    obtain ⟨c, hc, _⟩ := exists_head v
    exact List.length_pos_iff_exists_mem.mpr ⟨c, List.mem_of_mem_head? hc⟩
  cases v with
  | array items =>
    have := length_itemTokens_le items
    simp only [tokens, chars, List.length_cons]
    omega
  | object ms =>
    have := length_memberTokens_le ms
    simp only [tokens, chars, List.length_cons]
    omega
  | null | bool | int | float | string => exact hpos

theorem length_itemTokens_le (items : List Value) : (itemTokens items).length ≤ (itemChars items).length := by
  cases items with
  | nil => simp [itemTokens, itemChars]
  | cons v rest =>
    have hfirst := length_tokens_le v
    have hrest : (itemTailTokens rest).length ≤ (itemTail rest).length := by
      cases rest with
      | nil => simp [itemTailTokens, itemTail]
      | cons w others => simpa [itemTailTokens, itemTail] using length_itemTokens_le (w :: others)
    rw [itemTokens_cons, itemChars_cons, List.length_append, List.length_append]
    omega

theorem length_memberTokens_le (ms : List (String × Value)) :
    (memberTokens ms).length ≤ (memberChars ms).length := by
  cases ms with
  | nil => simp [memberTokens, memberChars]
  | cons m rest =>
    obtain ⟨k, v⟩ := m
    have hfirst := length_tokens_le v
    have hrest : (memberTailTokens rest).length ≤ (memberTail rest).length := by
      cases rest with
      | nil => simp [memberTailTokens, memberTail]
      | cons m' others => simpa [memberTailTokens, memberTail] using length_memberTokens_le (m' :: others)
    have hname : 0 < (Json.quoteChars k).length := by simp [Json.quoteChars]
    rw [memberTokens_cons, memberChars_cons]
    simp only [List.length_append, List.length_cons]
    omega

end

/-- The tokens of a value's text are those of the value. -/
theorem tokens_toText {v : Value} (hv : v.Legible) : Json.tokens v.toText.toList = v.tokens := by
  have hlength := length_tokens_le v
  obtain ⟨fuel, hfuel⟩ := Nat.exists_eq_add_of_le hlength
  have hnone : tokensUpTo (fuel + 1) [] = [] := rfl
  have hcut := tokensUpTo_chars v hv (fuel + 1) Json.ends_nil
  rw [List.append_nil, hnone, List.append_nil] at hcut
  rw [toText, String.toList_ofList, Json.tokens, hfuel, Nat.add_assoc, hcut]

end Value

end GuardedQuery
