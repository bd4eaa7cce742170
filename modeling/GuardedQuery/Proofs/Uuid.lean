import GuardedQuery.Uuid
import Mathlib

/-!
# The order of UUID texts

A UUID is a number that is written with 32 hexadecimal digits, and its texts are compared letter by letter. Figures come
before capital letters, and those before small ones. So two texts of one length are in the order of their numbers, as
long as no place has a capital letter in one text and a small letter in the other.

## Main definitions

* `Uuid.SpelledAlike`: texts of one length whose letters do not differ in case.

## Main statements

* `Uuid.compare_text`: texts of UUIDs that are spelled alike are in the order of the numbers.
-/

namespace GuardedQuery.Uuid

/-! ## Letters and digits -/

/-- One of the characters is a capital letter and the other one a small letter. -/
def CasesDiffer (c d : Char) : Prop := c.isUpper = true ∧ d.isLower = true ∨ c.isLower = true ∧ d.isUpper = true

instance (c d : Char) : Decidable (CasesDiffer c d) :=
  inferInstanceAs (Decidable (c.isUpper = true ∧ d.isLower = true ∨ c.isLower = true ∧ d.isUpper = true))

theorem casesDiffer_iff {c d : Char} : CasesDiffer c d ↔
    (65 ≤ c.toNat ∧ c.toNat ≤ 90) ∧ (97 ≤ d.toNat ∧ d.toNat ≤ 122) ∨
      (97 ≤ c.toNat ∧ c.toNat ≤ 122) ∧ 65 ≤ d.toNat ∧ d.toNat ≤ 90 := by
  simp [CasesDiffer, Char.isUpper, Char.isLower, UInt32.le_iff_toNat_le]

/-- The characters of the digits: figures, capital letters and small letters. -/
theorem digit?_eq_some {c : Char} {x : ℕ} (h : digit? c = some x) :
    x < 10 ∧ c.toNat = 48 + x ∨ 10 ≤ x ∧ x < 16 ∧ (c.toNat = 55 + x ∨ c.toNat = 87 + x) := by
  have hle : ∀ a b : Char, a ≤ b ↔ a.toNat ≤ b.toNat := fun _ _ => Iff.rfl
  have hmarks : '0'.toNat = 48 ∧ '9'.toNat = 57 ∧ 'A'.toNat = 65 ∧ 'F'.toNat = 70 ∧ 'a'.toNat = 97 ∧
      'f'.toNat = 102 := by decide
  simp only [digit?, hle] at h
  split_ifs at h <;> have hx := Option.some.inj h <;> omega

/-- Digits are in the order of their characters, unless these differ in case. -/
theorem digit_order {c d : Char} {x y : ℕ} (hc : digit? c = some x) (hd : digit? d = some y)
    (halike : ¬CasesDiffer c d) : (c < d ↔ x < y) ∧ (c = d ↔ x = y) := by
  have hlt : c < d ↔ c.toNat < d.toNat := Iff.rfl
  rw [casesDiffer_iff] at halike
  rw [hlt, ← Char.toNat_inj]
  have hcases := digit?_eq_some hc
  have hcases' := digit?_eq_some hd
  omega

/-! ## Numbers -/

/-- The number that digits stand for, behind digits that are known. -/
def continueDigits? (n : ℕ) (cs : List Char) : Option ℕ :=
  cs.foldlM (fun n c => (digit? c).map (16 * n + ·)) n

theorem continueDigits?_cons {n m : ℕ} {c : Char} {cs : List Char} (h : continueDigits? n (c :: cs) = some m) :
    ∃ x, digit? c = some x ∧ continueDigits? (16 * n + x) cs = some m := by
  obtain ⟨k, hk, hrest⟩ := Option.bind_eq_some_iff.mp h
  obtain ⟨x, hx, rfl⟩ := Option.map_eq_some_iff.mp hk
  exact ⟨x, hx, hrest⟩

/-- Further digits fill the places of a number. -/
theorem continueDigits?_bounds {n m : ℕ} {cs : List Char} (h : continueDigits? n cs = some m) :
    n * 16 ^ cs.length ≤ m ∧ m < (n + 1) * 16 ^ cs.length := by
  induction cs generalizing n with
  | nil =>
    obtain rfl : n = m := Option.some.inj h
    simp
  | cons c cs ih =>
    obtain ⟨x, hx, hrest⟩ := continueDigits?_cons h
    obtain ⟨hlower, hupper⟩ := ih hrest
    have hdigit : x < 16 := by
      have := digit?_eq_some hx
      omega
    rw [List.length_cons, pow_succ']
    constructor
    · calc n * (16 * 16 ^ cs.length) = 16 * n * 16 ^ cs.length := by ring
        _ ≤ (16 * n + x) * 16 ^ cs.length := Nat.mul_le_mul_right _ (Nat.le_add_right _ _)
        _ ≤ m := hlower
    · calc m < (16 * n + x + 1) * 16 ^ cs.length := hupper
        _ ≤ (16 * (n + 1)) * 16 ^ cs.length := Nat.mul_le_mul_right _ (by omega)
        _ = (n + 1) * (16 * 16 ^ cs.length) := by ring

/-- The number with the smaller first digits is smaller. -/
theorem continueDigits?_lt {k l m n : ℕ} {cs ds : List Char} (hlength : cs.length = ds.length) (hkl : k < l)
    (hm : continueDigits? k cs = some m) (hn : continueDigits? l ds = some n) : m < n := by
  calc m < (k + 1) * 16 ^ cs.length := (continueDigits?_bounds hm).2
    _ ≤ l * 16 ^ ds.length := hlength ▸ Nat.mul_le_mul_right _ hkl
    _ ≤ n := (continueDigits?_bounds hn).1

/-- Lists of digits are in the order of their numbers, unless letters differ in case. -/
theorem digits_lt_iff {k m n : ℕ} {cs ds : List Char} (halike : List.Forall₂ (fun c d => ¬CasesDiffer c d) cs ds)
    (hm : continueDigits? k cs = some m) (hn : continueDigits? k ds = some n) :
    (cs < ds ↔ m < n) ∧ (cs = ds ↔ m = n) := by
  induction halike generalizing k with
  | nil =>
    obtain rfl : m = n := Option.some.inj (hm.symm.trans hn)
    simp
  | @cons c d cs ds hcases halike ih =>
    obtain ⟨x, hx, hcs⟩ := continueDigits?_cons hm
    obtain ⟨y, hy, hds⟩ := continueDigits?_cons hn
    obtain ⟨hlt, heq⟩ := digit_order hx hy hcases
    rw [List.cons_lt_cons_iff, List.cons.injEq, hlt, heq]
    rcases Nat.lt_trichotomy x y with hxy | rfl | hyx
    · have hmn : m < n := continueDigits?_lt halike.length_eq (by omega) hcs hds
      omega
    · obtain ⟨hrest, hrest'⟩ := ih hcs hds
      simp [hrest, hrest']
    · have hnm : n < m := continueDigits?_lt halike.length_eq.symm (by omega) hds hcs
      omega

/-! ## Forms -/

/-- Two texts and the digits of each: at every place there is a digit of both texts, or a mark that they share. -/
inductive Parallel : List Char → List Char → List Char → List Char → Prop
  /-- The texts are at their ends. -/
  | nil : Parallel [] [] [] []
  /-- Both texts go on with a digit. -/
  | digit {cs ds as bs : List Char} (c d : Char) :
    Parallel cs ds as bs → Parallel (c :: cs) (d :: ds) (c :: as) (d :: bs)
  /-- Both texts go on with the same mark. -/
  | mark {cs ds as bs : List Char} (c : Char) : Parallel cs ds as bs → Parallel (c :: cs) (c :: ds) as bs

namespace Parallel

variable {cs ds as bs cs' ds' as' bs' : List Char}

theorem append (h : Parallel cs ds as bs) (h' : Parallel cs' ds' as' bs') :
    Parallel (cs ++ cs') (ds ++ ds') (as ++ as') (bs ++ bs') := by
  induction h with
  | nil => exact h'
  | digit c d _ ih => exact .digit c d ih
  | mark c _ ih => exact .mark c ih

theorem digits (h : as.length = bs.length) : Parallel as bs as bs := by
  induction as generalizing bs with
  | nil =>
    obtain rfl := List.length_eq_zero_iff.mp h.symm
    exact .nil
  | cons a as ih =>
    obtain ⟨b, bs, rfl⟩ := List.exists_cons_of_length_eq_add_one h.symm
    exact .digit a b (ih (Nat.succ.inj h))

theorem marks (h : Parallel cs ds as bs) (ms : List Char) : Parallel (ms ++ cs) (ms ++ ds) as bs := by
  induction ms with
  | nil => exact h
  | cons m ms ih => exact .mark m ih

/-- Shared marks do not change the order. -/
theorem lt_iff (h : Parallel cs ds as bs) : (cs < ds ↔ as < bs) ∧ (cs = ds ↔ as = bs) := by
  induction h with
  | nil => exact ⟨.rfl, .rfl⟩
  | digit c d _ ih => simp only [List.cons_lt_cons_iff, List.cons.injEq, ih, true_and]
  | mark c _ ih => simp [ih]

/-- What holds of the texts place by place holds of their digits. -/
theorem forall₂ {R : Char → Char → Prop} (h : Parallel cs ds as bs) (hR : List.Forall₂ R cs ds) :
    List.Forall₂ R as bs := by
  induction h with
  | nil => exact .nil
  | digit c d _ ih =>
    rw [List.forall₂_cons] at hR ⊢
    exact ⟨hR.1, ih hR.2⟩
  | mark c _ ih => exact ih (List.forall₂_cons.mp hR).2

end Parallel

/-- The hyphenated form has groups of 8, 4, 4, 4 and 12 digits. -/
theorem ungroup?_eq_some {cs as : List Char} (h : ungroup? cs = some as) : ∃ a b c d e : List Char,
    (a.length = 8 ∧ b.length = 4 ∧ c.length = 4 ∧ d.length = 4 ∧ e.length = 12) ∧
      cs = a ++ '-' :: (b ++ '-' :: (c ++ '-' :: (d ++ '-' :: e))) ∧ as = a ++ (b ++ (c ++ (d ++ e))) := by
  rw [ungroup?] at h
  split at h
  · rename_i hlength
    split at h
    · rename_i a b c d ha hb hc hd
      have hdigits := (Option.some.inj h).symm
      have hstep : ∀ {j k : ℕ} {xs ys : List Char}, cs.drop j = '-' :: xs → cs.drop (j + 1 + k) = ys →
          xs.take k ++ ys = xs := by
        intro j k xs ys hxs hys
        have hrest : xs.drop k = ys := by rw [← hys, ← List.drop_drop, ← List.drop_drop, hxs]; rfl
        rw [← hrest, List.take_append_drop]
      have hlengths : ∀ {j : ℕ} {xs : List Char}, cs.drop j = '-' :: xs → xs.length + 1 + j = max j cs.length := by
        intro j xs hxs
        have := congrArg List.length hxs
        rw [List.length_drop, List.length_cons] at this
        omega
      have hla := hlengths ha
      have hlb := hlengths hb
      have hlc := hlengths hc
      have hld := hlengths hd
      refine ⟨cs.take 8, a.take 4, b.take 4, c.take 4, d, ?_, ?_, ?_⟩
      · simp only [List.length_take]
        omega
      · rw [hstep hc hd, hstep hb hc, hstep ha hb, ← ha, List.take_append_drop]
      · simp only [hdigits, List.append_assoc]
    · cases h
  · cases h

theorem parallel_of_ungroup? {cs ds as bs : List Char} (ha : ungroup? cs = some as) (hb : ungroup? ds = some bs) :
    Parallel cs ds as bs := by
  obtain ⟨a, b, c, d, e, hlength, rfl, rfl⟩ := ungroup?_eq_some ha
  obtain ⟨a', b', c', d', e', hlength', rfl, rfl⟩ := ungroup?_eq_some hb
  obtain ⟨h1, h2, h3, h4, h5⟩ := hlength
  obtain ⟨h1', h2', h3', h4', h5'⟩ := hlength'
  refine (Parallel.digits (h1.trans h1'.symm)).append (.mark _ ?_)
  refine (Parallel.digits (h2.trans h2'.symm)).append (.mark _ ?_)
  refine (Parallel.digits (h3.trans h3'.symm)).append (.mark _ ?_)
  exact (Parallel.digits (h4.trans h4'.symm)).append (.mark _ (.digits (h5.trans h5'.symm)))

theorem length_of_ungroup? {cs as : List Char} (h : ungroup? cs = some as) : cs.length = 36 := by
  rw [ungroup?] at h
  split at h
  · assumption
  · cases h

/-- Where the 32 digits stand: alone, in hyphenated groups, behind `urn:uuid:`, or in braces. -/
theorem form?_eq_some {cs as : List Char} (h : form? cs = some as) :
    cs.length = 32 ∧ as = cs ∨
    cs.length = 36 ∧ ungroup? cs = some as ∨
    cs.length = 45 ∧ (cs.take 9).map Char.toLower = "urn:uuid:".toList ∧ ungroup? (cs.drop 9) = some as ∨
    cs.length = 38 ∧ ∃ rest, cs = '\x7b' :: (rest ++ ['\x7d']) ∧ ungroup? rest = some as := by
  unfold form? at h
  split at h
  · rename_i hlength
    exact .inl ⟨hlength, (Option.some.inj h).symm⟩
  split at h
  · rename_i hstart
    have hrest := length_of_ungroup? h
    rw [List.length_drop] at hrest
    exact .inr (.inr (.inl ⟨by omega, hstart, h⟩))
  split at h
  · rename_i rest _ _
    split at h
    · rename_i hlast
      obtain ⟨init, hinit⟩ := List.getLast?_eq_some_iff.mp hlast
      rw [hinit, List.dropLast_concat] at h
      exact .inr (.inr (.inr ⟨by simp [hinit, length_of_ungroup? h], init, by rw [hinit], h⟩))
    · cases h
  · exact .inr (.inl ⟨length_of_ungroup? h, h⟩)

/-- Texts of UUIDs are spelled alike if they have one length, and no place has a capital letter in one text and a small
letter in the other. -/
def SpelledAlike (s t : String) : Prop := List.Forall₂ (fun c d => ¬CasesDiffer c d) s.toList t.toList

instance (s t : String) : Decidable (SpelledAlike s t) :=
  inferInstanceAs (Decidable (List.Forall₂ (fun c d => ¬CasesDiffer c d) s.toList t.toList))

theorem toNat_toLower (c : Char) :
    c.toLower.toNat = if 65 ≤ c.toNat ∧ c.toNat ≤ 90 then c.toNat + 32 else c.toNat := by
  have hcapital : c.val ≥ 'A'.val ∧ c.val ≤ 'Z'.val ↔ 65 ≤ c.toNat ∧ c.toNat ≤ 90 := by
    simp [UInt32.le_iff_toNat_le]
  unfold Char.toLower
  split
  · rename_i h
    rw [if_pos (hcapital.mp h)]
    have hsmall : c.val.toNat ≤ 90 := (hcapital.mp h).2
    show (c.val.toNat + 32) % 2 ^ 32 = c.toNat + 32
    exact Nat.mod_eq_of_lt (by omega)
  · rename_i h
    rw [if_neg (hcapital.not.mp h)]

/-- Characters that are the same in lower case differ in case, or not at all. -/
theorem eq_of_toLower_eq {c d : Char} (h : c.toLower = d.toLower) (halike : ¬CasesDiffer c d) : c = d := by
  have hnumbers := congrArg Char.toNat h
  rw [toNat_toLower, toNat_toLower] at hnumbers
  rw [casesDiffer_iff] at halike
  rw [← Char.toNat_inj]
  split_ifs at hnumbers <;> omega

theorem eq_of_map_toLower_eq {cs ds : List Char} (halike : List.Forall₂ (fun c d => ¬CasesDiffer c d) cs ds)
    (h : cs.map Char.toLower = ds.map Char.toLower) : cs = ds := by
  induction halike with
  | nil => rfl
  | cons hcases _ ih =>
    obtain ⟨hfirst, hrest⟩ := List.cons.inj h
    rw [eq_of_toLower_eq hfirst hcases, ih hrest]

theorem parallel_of_form? {cs ds as bs : List Char} (halike : List.Forall₂ (fun c d => ¬CasesDiffer c d) cs ds)
    (ha : form? cs = some as) (hb : form? ds = some bs) : Parallel cs ds as bs := by
  have hlength := halike.length_eq
  -- Texts of one length have one form.
  rcases form?_eq_some ha with ⟨hc, rfl⟩ | ⟨hc, hac⟩ | ⟨hc, hstart, hac⟩ | ⟨hc, rest, rfl, hac⟩ <;>
    rcases form?_eq_some hb with ⟨hd, rfl⟩ | ⟨hd, hbd⟩ | ⟨hd, hstart', hbd⟩ | ⟨hd, rest', rfl, hbd⟩ <;>
    try exact absurd (hc.symm.trans (hlength.trans hd)) (by decide)
  · exact .digits hlength
  · exact parallel_of_ungroup? hac hbd
  · have hsame := eq_of_map_toLower_eq (List.forall₂_take 9 halike) (hstart.trans hstart'.symm)
    have hparts := (parallel_of_ungroup? hac hbd).marks (cs.take 9)
    rwa [List.take_append_drop, hsame, List.take_append_drop] at hparts
  · have hclosing : Parallel ['\x7d'] ['\x7d'] [] [] := .mark _ .nil
    simpa using ((parallel_of_ungroup? hac hbd).append hclosing).marks ['\x7b']

theorem parse?_eq_some {s : String} {u : Uuid} (h : parse? s = some u) :
    ∃ ds, form? s.toList = some ds ∧ ∃ n, digits? ds = some n ∧ { value := n } = u := by
  simpa [parse?, Option.bind_eq_some_iff] using h

/-- The order of texts is the one of their characters. -/
theorem compare_eq_of_lt_iff {s t : String} {m n : ℕ} (hlt : s.toList < t.toList ↔ m < n)
    (heq : s.toList = t.toList ↔ m = n) : Ord.compare s t = Ord.compare m n := by
  have hs : Ord.compare s t = compareOfLessAndEq s t := rfl
  have hn : Ord.compare m n = compareOfLessAndEq m n := rfl
  rw [hs, hn]
  simp only [compareOfLessAndEq, String.lt_iff_toList_lt, ← String.toList_inj, hlt, heq]

/-- **Texts of UUIDs that are spelled alike are in the order of the numbers.** -/
theorem compare_text {s t : String} {u v : Uuid} (halike : SpelledAlike s t) (hu : parse? s = some u)
    (hv : parse? t = some v) : Ord.compare s t = Ord.compare u.value v.value := by
  obtain ⟨as, has, m, hm, rfl⟩ := parse?_eq_some hu
  obtain ⟨bs, hbs, n, hn, rfl⟩ := parse?_eq_some hv
  have hparallel := parallel_of_form? halike has hbs
  obtain ⟨hlt, heq⟩ := digits_lt_iff (hparallel.forall₂ halike) hm hn
  obtain ⟨hlt', heq'⟩ := hparallel.lt_iff
  exact compare_eq_of_lt_iff (hlt'.trans hlt) (heq'.trans heq)

end GuardedQuery.Uuid
