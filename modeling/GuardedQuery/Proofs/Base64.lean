import GuardedQuery.Base64
import GuardedQuery.Text.Blank
import Mathlib.Data.List.Basic

/-!
# Base64 texts are read back

Encoding loses nothing, whatever the bytes, and produces no white space.

## Main statements

* `Base64.decode?_encode`: encoded bytes are decoded again.
* `Base64.fromUTF8?_toByteArray`: the bytes of a text are read as the text.
* `Base64.trimChars_encode`: encoded bytes have no white space around them.
* `Base64.isBlankText_encodeText`: the form of a text is not blank.
-/

namespace GuardedQuery.Base64

/-! ## Symbols -/

theorem valueOf?_symbolOf {n : Nat} (h : n < 64) : valueOf? (symbolOf n) = some n := by
  have hall : ∀ n < 64, valueOf? (symbolOf n) = some n := by decide
  exact hall n h

theorem symbolOf_ne_padding {n : Nat} (h : n < 64) : symbolOf n ≠ '=' := by
  have hall : ∀ n < 64, symbolOf n ≠ '=' := by decide
  exact hall n h

theorem isBlank_symbolOf {n : Nat} (h : n < 64) : Text.isBlank (symbolOf n) = false := by
  have hall : ∀ n < 64, Text.isBlank (symbolOf n) = false := by decide
  exact hall n h

/-! ## Bytes -/

/-- Four symbols whose last is no padding are read as three bytes, whatever follows. -/
theorem decode?_group {a b c d : Nat} (ha : a < 64) (hb : b < 64) (hc : c < 64) (hd : d < 64)
    (rest : List Char) :
    decode? (symbolOf a :: symbolOf b :: symbolOf c :: symbolOf d :: rest) =
      (decode? rest).map fun bytes =>
        let n := ((a * 64 + b) * 64 + c) * 64 + d
        UInt8.ofNat (n / 65536) :: UInt8.ofNat (n / 256 % 256) :: UInt8.ofNat (n % 256) :: bytes := by
  have hpadding := symbolOf_ne_padding hd
  rw [decode?]
  · simp only [valueOf?_symbolOf ha, valueOf?_symbolOf hb, valueOf?_symbolOf hc, valueOf?_symbolOf hd,
      Option.bind_eq_bind, Option.bind_some]
    cases decode? rest <;> rfl
  · intro _ h _
    exact hpadding h
  · intro h _
    exact hpadding h

/-- **Encoded bytes are decoded again.** -/
theorem decode?_encode (bytes : List UInt8) : decode? (encode bytes) = some bytes := by
  induction bytes using encode.induct with
  | case1 => rfl
  | case2 a =>
    have ha := a.toNat_lt
    obtain ⟨n, hn⟩ : ∃ n, n = a.toNat * 16 := ⟨_, rfl⟩
    have hfirst : valueOf? (symbolOf (n / 64)) = some (n / 64) := valueOf?_symbolOf (by omega)
    have hsecond : valueOf? (symbolOf (n % 64)) = some (n % 64) := valueOf?_symbolOf (by omega)
    have hrest : (n / 64 * 64 + n % 64) % 16 = 0 := by omega
    have hbyte : (n / 64 * 64 + n % 64) / 16 = a.toNat := by omega
    simp only [encode, decode?]
    rw [← hn]
    simp [hfirst, hsecond, hrest, hbyte]
  | case3 a b =>
    have ha := a.toNat_lt
    have hb := b.toNat_lt
    obtain ⟨n, hn⟩ : ∃ n, n = (a.toNat * 256 + b.toNat) * 4 := ⟨_, rfl⟩
    have hfirst : valueOf? (symbolOf (n / 4096)) = some (n / 4096) := valueOf?_symbolOf (by omega)
    have hsecond : valueOf? (symbolOf (n / 64 % 64)) = some (n / 64 % 64) := valueOf?_symbolOf (by omega)
    have hthird : valueOf? (symbolOf (n % 64)) = some (n % 64) := valueOf?_symbolOf (by omega)
    have hwhole : (n / 4096 * 64 + n / 64 % 64) * 64 + n % 64 = n := by omega
    have hrest : n % 4 = 0 := by omega
    have hleft : n / 1024 = a.toNat := by omega
    have hright : n / 4 % 256 = b.toNat := by omega
    have hpadding : symbolOf (n % 64) ≠ '=' := symbolOf_ne_padding (by omega)
    simp only [encode]
    rw [← hn, decode?]
    · simp [hfirst, hsecond, hthird, hwhole, hrest, hleft, hright]
    · exact hpadding
  | case4 a b c rest ih =>
    have ha := a.toNat_lt
    have hb := b.toNat_lt
    have hc := c.toNat_lt
    obtain ⟨n, hn⟩ : ∃ n, n = (a.toNat * 256 + b.toNat) * 256 + c.toNat := ⟨_, rfl⟩
    have hwhole : ((n / 262144 * 64 + n / 4096 % 64) * 64 + n / 64 % 64) * 64 + n % 64 = n := by omega
    have hleft : n / 65536 = a.toNat := by omega
    have hmiddle : n / 256 % 256 = b.toNat := by omega
    have hright : n % 256 = c.toNat := by omega
    simp only [encode]
    rw [← hn, decode?_group (by omega) (by omega) (by omega) (by omega), ih]
    simp [hwhole, hleft, hmiddle, hright]

/-- The bytes of a text are read as the text. -/
theorem fromUTF8?_toByteArray (s : String) :
    String.fromUTF8? { data := { toList := s.toByteArray.data.toList } } = some s := by
  have hvalid : s.toByteArray.IsValidUTF8 := s.isValidUTF8
  simp [String.fromUTF8?, hvalid, String.fromUTF8]

/-! ## White space -/

/-- Encoding makes no white space. -/
theorem isBlank_encode (bytes : List UInt8) : ∀ c ∈ encode bytes, Text.isBlank c = false := by
  have hpadding : Text.isBlank '=' = false := by decide
  induction bytes using encode.induct with
  | case1 => simp [encode]
  | case2 a =>
    have ha := a.toNat_lt
    obtain ⟨n, hn⟩ : ∃ n, n = a.toNat * 16 := ⟨_, rfl⟩
    simp only [encode]
    rw [← hn]
    simp only [List.forall_mem_cons, List.not_mem_nil, false_imp_iff, implies_true, and_true]
    exact ⟨isBlank_symbolOf (by omega), isBlank_symbolOf (by omega), hpadding, hpadding⟩
  | case3 a b =>
    have ha := a.toNat_lt
    have hb := b.toNat_lt
    obtain ⟨n, hn⟩ : ∃ n, n = (a.toNat * 256 + b.toNat) * 4 := ⟨_, rfl⟩
    simp only [encode]
    rw [← hn]
    simp only [List.forall_mem_cons, List.not_mem_nil, false_imp_iff, implies_true, and_true]
    exact ⟨isBlank_symbolOf (by omega), isBlank_symbolOf (by omega), isBlank_symbolOf (by omega), hpadding⟩
  | case4 a b c rest ih =>
    have ha := a.toNat_lt
    have hb := b.toNat_lt
    have hc := c.toNat_lt
    obtain ⟨n, hn⟩ : ∃ n, n = (a.toNat * 256 + b.toNat) * 256 + c.toNat := ⟨_, rfl⟩
    simp only [encode]
    rw [← hn]
    simp only [List.forall_mem_cons]
    exact ⟨isBlank_symbolOf (by omega), isBlank_symbolOf (by omega), isBlank_symbolOf (by omega),
      isBlank_symbolOf (by omega), ih⟩

end GuardedQuery.Base64

namespace GuardedQuery.Text

/-- Characters without white space have none to trim. -/
theorem trimChars_of_not_blank {cs : List Char} (h : ∀ c ∈ cs, isBlank c = false) : trimChars cs = cs := by
  have hdrop : ∀ l : List Char, (∀ c ∈ l, isBlank c = false) → l.dropWhile isBlank = l := by
    intro l hl
    cases l with
    | nil => rfl
    | cons c rest => rw [List.dropWhile_cons_of_neg (by simp [hl c (by simp)])]
  have hreverse : ∀ c ∈ cs.reverse, isBlank c = false := fun c hc => h c (List.mem_reverse.mp hc)
  rw [trimChars, hdrop cs h, hdrop cs.reverse hreverse, List.reverse_reverse]

end GuardedQuery.Text

namespace GuardedQuery.Base64

/-- Encoded bytes have no white space around them. -/
theorem trimChars_encode (bytes : List UInt8) : Text.trimChars (encode bytes) = encode bytes :=
  Text.trimChars_of_not_blank (isBlank_encode bytes)

/-- The form of a text that is not empty holds more than white space. -/
theorem isBlankText_encodeText {s : String} (h : s ≠ "") : Text.isBlankText (encodeText s) = false := by
  rw [Text.isBlankText, encodeText, String.toList_ofList, Bool.eq_false_iff]
  intro hblank
  have hempty : encode s.toByteArray.data.toList = [] := by
    refine List.eq_nil_iff_forall_not_mem.mpr ?_
    intro c hc
    have hsome := List.all_eq_true.mp hblank c hc
    rw [isBlank_encode _ c hc] at hsome
    exact Bool.false_ne_true hsome
  have hdecoded := decode?_encode s.toByteArray.data.toList
  rw [hempty] at hdecoded
  have hbytes : s.toByteArray.data.toList = "".toByteArray.data.toList := (Option.some.inj hdecoded).symm
  exact h (String.toByteArray_inj.mp (ByteArray.ext (Array.toList_inj.mp hbytes)))

end GuardedQuery.Base64
