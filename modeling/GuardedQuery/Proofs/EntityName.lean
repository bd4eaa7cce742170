import GuardedQuery.Policy.Basic
import Mathlib

/-!
# Names of entities

Policies look entities up by their trimmed name in lower case, and stores by their name in lower case. The
two orders of trimming and lowering are the same, because white space has no case and never decides how a
sigma is lowered. So names under which a store knows one entity lead to one entity policy.

## Main statements

* `Text.lower_trim`: trimming and lowering commute.
* `Text.lower_trim_eq_lower_iff`: lowering tells a text from its trimmed form.
* `Policy.entity?_congr`: names with one look-up key have one entity policy.
-/

namespace GuardedQuery

namespace Text

/-! ## White space has no case -/

/-- The code points of white space. -/
def blankCodes : List Nat :=
  [9, 10, 11, 12, 13, 0x20, 0x85, 0xA0, 0x1680, 0x2000, 0x2001, 0x2002, 0x2003, 0x2004, 0x2005, 0x2006, 0x2007,
    0x2008, 0x2009, 0x200A, 0x2028, 0x2029, 0x202F, 0x205F, 0x3000]

theorem isBlank_iff (c : Char) : isBlank c = true ↔ c.toNat ∈ blankCodes := by
  simp only [isBlank, blankCodes, Bool.or_eq_true, Bool.and_eq_true, decide_eq_true_eq, beq_iff_eq,
    List.mem_cons, List.not_mem_nil, or_false]
  omega

theorem isCaseIgnorable_of_isBlank {c : Char} (h : isBlank c = true) : isCaseIgnorable c = false := by
  have hall : ∀ n ∈ blankCodes, inRanges caseIgnorableRanges n = false := by decide +kernel
  exact hall _ ((isBlank_iff c).mp h)

theorem isCased_of_isBlank {c : Char} (h : isBlank c = true) : isCased c = false := by
  have hall : ∀ n ∈ blankCodes, inRanges casedRanges n = false := by decide +kernel
  exact hall _ ((isBlank_iff c).mp h)

theorem ne_sigma_of_isBlank {c : Char} (h : isBlank c = true) : c ≠ 'Σ' := by
  rintro rfl
  revert h
  decide

theorem lowerChar_of_isBlank {c : Char} (h : isBlank c = true) : lowerChar c = [c] := by
  have hall : ∀ n ∈ blankCodes, lowerChar (Char.ofNat n) = [Char.ofNat n] := by decide +kernel
  have hlower := hall _ ((isBlank_iff c).mp h)
  rwa [Char.ofNat_toNat] at hlower

/-! ## Lowering makes no white space -/

theorem toNat_ofNat_eq (n : Nat) : (Char.ofNat n).toNat = n ∨ (Char.ofNat n).toNat = 0 := by
  rw [Char.ofNat]
  split
  · exact .inl rfl
  · exact .inr rfl

theorem isBlank_ofNat_of_not_mem {n : Nat} (h : n ∉ blankCodes) : isBlank (Char.ofNat n) = false := by
  have hzero : (0 : Nat) ∉ blankCodes := by decide
  rw [Bool.eq_false_iff, Ne, isBlank_iff]
  rcases toNat_ofNat_eq n with heq | heq <;> rw [heq] <;> assumption

theorem isBlank_toLower {c : Char} (hsmall : c.toNat < 128) (h : isBlank c = false) :
    isBlank c.toLower = false := by
  have hascii : ∀ n < 128, isBlank (Char.ofNat n) = false → isBlank (Char.ofNat n).toLower = false := by decide
  simpa [h] using hascii c.toNat hsmall

/-- A character that is no white space is lowered to at least one character, and none of them is white
space. -/
theorem lowerChar_of_not_isBlank {c : Char} (h : isBlank c = false) :
    lowerChar c ≠ [] ∧ ∀ d ∈ lowerChar c, isBlank d = false := by
  have hruns : ∀ run ∈ lowerRuns, ∀ b ∈ blankCodes,
      ¬((run.1 : Int) + run.2.2.2 ≤ b ∧ (b : Int) ≤ run.2.1 + run.2.2.2) := by decide +kernel
  have hdotted : ∀ d ∈ ['i', Char.ofNat 0x307], isBlank d = false := by simp [isBlank]
  rw [lowerChar]
  by_cases hsmall : c.toNat < 128
  · simpa [hsmall] using isBlank_toLower hsmall h
  by_cases hne : c.toNat = 0x130
  · simpa [hsmall, hne] using hdotted
  simp only [hsmall, hne, if_false]
  split
  · rename_i first last step shift hfound
    have hmem := List.mem_of_find?_eq_some hfound
    have hin := List.find?_some hfound
    simp only [Bool.and_eq_true, decide_eq_true_eq] at hin
    refine ⟨by simp, ?_⟩
    simp only [List.mem_singleton, forall_eq]
    refine isBlank_ofNat_of_not_mem ?_
    intro hb
    have hzero : (0 : Nat) ∉ blankCodes := by decide
    have hne : (c.toNat + shift).toNat ≠ 0 := fun heq => hzero (heq ▸ hb)
    refine hruns _ hmem _ hb ?_
    constructor <;> dsimp only <;> omega
  · simpa using h

/-! ## Lowering beside white space -/

/-- White space ends a word as the end of the text does. -/
theorem startsCased_append_blank (s t : List Char) {b : Char} (hb : isBlank b = true) :
    startsCased (s ++ b :: t) = startsCased s := by
  unfold startsCased
  rw [List.dropWhile_append]
  by_cases hempty : (s.dropWhile isCaseIgnorable).isEmpty = true
  · rw [if_pos hempty, List.isEmpty_iff.mp hempty]
    simp [isCaseIgnorable_of_isBlank hb, isCased_of_isBlank hb]
  · rw [if_neg hempty]
    cases hs : s.dropWhile isCaseIgnorable with
    | nil => simp [hs] at hempty
    | cons c rest => simp

/-- The characters before white space do not matter after it. -/
theorem lowerChars_after_blank (before after : List Char) {b : Char} (hb : isBlank b = true) (s : List Char) :
    lowerChars (after ++ b :: before) s = lowerChars after s := by
  induction s generalizing after with
  | nil => rfl
  | cons c rest ih =>
    simp only [lowerChars, startsCased_append_blank _ _ hb]
    exact congrArg _ (ih (c :: after))

theorem lowerChars_cons_of_isBlank (before s : List Char) {b : Char} (hb : isBlank b = true) :
    lowerChars before (b :: s) = b :: lowerChars (b :: before) s := by
  simp [lowerChars, ne_sigma_of_isBlank hb, lowerChar_of_isBlank hb]

/-- What a character becomes: nothing of it is white space, and something remains. -/
theorem exists_lowerChars_cons (before s : List Char) {c : Char} (hc : isBlank c = false) :
    ∃ lowered, lowered ≠ [] ∧ (∀ d ∈ lowered, isBlank d = false) ∧
      lowerChars before (c :: s) = lowered ++ lowerChars (c :: before) s := by
  by_cases hsigma : c = 'Σ'
  · have hfinal : isBlank 'ς' = false ∧ isBlank 'σ' = false := by decide
    refine ⟨if startsCased before && !startsCased s then ['ς'] else ['σ'], ?_, ?_, by simp [lowerChars, hsigma]⟩
    · split <;> simp
    · split <;> simp [hfinal]
  · obtain ⟨hne, hall⟩ := lowerChar_of_not_isBlank hc
    exact ⟨lowerChar c, hne, hall, by simp [lowerChars, hsigma]⟩

theorem dropWhile_lowerChars (s : List Char) :
    (lowerChars [] s).dropWhile isBlank = lowerChars [] (s.dropWhile isBlank) := by
  induction s with
  | nil => rfl
  | cons c rest ih =>
    cases hc : isBlank c with
    | true =>
      have hrest : lowerChars [c] rest = lowerChars [] rest := lowerChars_after_blank [] [] hc rest
      simp [lowerChars_cons_of_isBlank _ _ hc, hc, hrest, ih]
    | false =>
      obtain ⟨lowered, hne, hall, heq⟩ := exists_lowerChars_cons [] rest hc
      obtain ⟨d, lowered, rfl⟩ := List.exists_cons_of_ne_nil hne
      have hd : isBlank d = false := hall d (by simp)
      simp [hc, heq, hd]

/-- White space at the end stays as it is. -/
theorem lowerChars_append_blanks (before s blanks : List Char) (hblanks : ∀ b ∈ blanks, isBlank b = true) :
    lowerChars before (s ++ blanks) = lowerChars before s ++ blanks := by
  induction s generalizing before with
  | nil =>
    induction blanks generalizing before with
    | nil => rfl
    | cons b rest ih =>
      obtain ⟨hb, hrest⟩ := List.forall_mem_cons.mp hblanks
      simpa [lowerChars_cons_of_isBlank _ _ hb, lowerChars] using ih hrest (b :: before)
  | cons c rest ih =>
    have hcased : startsCased (rest ++ blanks) = startsCased rest := by
      cases blanks with
      | nil => simp
      | cons b others => exact startsCased_append_blank rest others (hblanks b (by simp))
    simp only [List.cons_append, lowerChars, hcased, ih, List.append_assoc]

/-- The last character of a lowered text is no white space if that of the text is none. -/
theorem exists_lowerChars_concat (before s : List Char) {c : Char} (hc : isBlank c = false) :
    ∃ lowered d, lowerChars before (s ++ [c]) = lowered ++ [d] ∧ isBlank d = false := by
  induction s generalizing before with
  | nil =>
    obtain ⟨lowered, hne, hall, heq⟩ := exists_lowerChars_cons before [] hc
    refine ⟨lowered.dropLast, lowered.getLast hne, ?_, hall _ (List.getLast_mem hne)⟩
    rw [List.dropLast_concat_getLast hne, List.nil_append, heq, lowerChars, List.append_nil]
  | cons x rest ih =>
    obtain ⟨lowered, d, heq, hd⟩ := ih (x :: before)
    rw [List.cons_append, lowerChars, heq, ← List.append_assoc]
    exact ⟨_, d, rfl, hd⟩

/-- The characters without the white space at the end. -/
def trimEnd (s : List Char) : List Char := (s.reverse.dropWhile isBlank).reverse

theorem trimEnd_append_blanks (s blanks : List Char) (hblanks : ∀ b ∈ blanks, isBlank b = true) :
    trimEnd (s ++ blanks) = trimEnd s := by
  have hall : blanks.reverse.dropWhile isBlank = [] := by
    simpa [List.dropWhile_eq_nil_iff] using hblanks
  simp [trimEnd, List.dropWhile_append, hall]

theorem trimEnd_lowerChars (s : List Char) : trimEnd (lowerChars [] s) = lowerChars [] (trimEnd s) := by
  have hsplit : s = trimEnd s ++ (s.reverse.takeWhile isBlank).reverse := by
    rw [trimEnd, ← List.reverse_append, List.takeWhile_append_dropWhile, List.reverse_reverse]
  have hblanks : ∀ b ∈ (s.reverse.takeWhile isBlank).reverse, isBlank b = true := by
    intro b hb
    exact List.mem_takeWhile_imp (List.mem_reverse.mp hb)
  have hcut : trimEnd (lowerChars [] s) = trimEnd (lowerChars [] (trimEnd s)) := by
    calc
      trimEnd (lowerChars [] s) = trimEnd (lowerChars [] (trimEnd s ++ (s.reverse.takeWhile isBlank).reverse)) := by
        rw [← hsplit]
      _ = trimEnd (lowerChars [] (trimEnd s)) := by
        rw [lowerChars_append_blanks _ _ _ hblanks, trimEnd_append_blanks _ _ hblanks]
  rw [hcut]
  cases hcore : s.reverse.dropWhile isBlank with
  | nil => simp [trimEnd, hcore, lowerChars]
  | cons c rest =>
    have hc : isBlank c = false := by
      have := List.head_dropWhile_not isBlank (l := s.reverse) (by simp [hcore])
      simpa [hcore] using this
    obtain ⟨lowered, d, heq, hd⟩ := exists_lowerChars_concat [] rest.reverse hc
    have hend : trimEnd s = rest.reverse ++ [c] := by simp [trimEnd, hcore]
    rw [hend, heq]
    simp [trimEnd, hd]

/-- Trimming and lowering commute. -/
theorem lower_trim (s : String) : lower (trim s) = trim (lower s) := by
  have hchars : ∀ cs, trimChars cs = trimEnd (cs.dropWhile isBlank) := fun _ => rfl
  simp only [lower, trim, String.toList_ofList, hchars, dropWhile_lowerChars, trimEnd_lowerChars]

/-! ## Texts between white space -/

/-- A text is its trimmed form between white space. -/
theorem exists_blanks_around (s : List Char) : ∃ before after, (∀ b ∈ before, isBlank b = true) ∧
    (∀ b ∈ after, isBlank b = true) ∧ s = before ++ (trimChars s ++ after) := by
  refine ⟨s.takeWhile isBlank, ((s.dropWhile isBlank).reverse.takeWhile isBlank).reverse, ?_, ?_, ?_⟩
  · exact fun b hb => List.mem_takeWhile_imp hb
  · exact fun b hb => List.mem_takeWhile_imp (List.mem_reverse.mp hb)
  · rw [trimChars, ← List.reverse_append, List.takeWhile_append_dropWhile, List.reverse_reverse,
      List.takeWhile_append_dropWhile]

/-- White space at the beginning stays as it is. -/
theorem lowerChars_blanks_append (blanks s : List Char) (hblanks : ∀ b ∈ blanks, isBlank b = true) :
    lowerChars [] (blanks ++ s) = blanks ++ lowerChars [] s := by
  induction blanks with
  | nil => rfl
  | cons b rest ih =>
    obtain ⟨hb, hrest⟩ := List.forall_mem_cons.mp hblanks
    have hafter : lowerChars [b] (rest ++ s) = lowerChars [] (rest ++ s) := lowerChars_after_blank [] [] hb _
    rw [List.cons_append, lowerChars_cons_of_isBlank _ _ hb, hafter, ih hrest, List.cons_append]

/-- Lowering tells a text from its trimmed form. -/
theorem lower_trim_eq_lower_iff (s : String) : lower (trim s) = lower s ↔ trim s = s := by
  constructor
  · intro h
    obtain ⟨before, after, hbefore, hafter, hsplit⟩ := exists_blanks_around s.toList
    have hchars : lowerChars [] (trimChars s.toList) =
        before ++ (lowerChars [] (trimChars s.toList) ++ after) := by
      have hlowered : lowerChars [] (trimChars s.toList) = lowerChars [] s.toList := by
        simpa [lower, trim] using congrArg String.toList h
      have hparts : lowerChars [] s.toList = before ++ (lowerChars [] (trimChars s.toList) ++ after) := by
        conv_lhs => rw [hsplit]
        rw [lowerChars_blanks_append _ _ hbefore, lowerChars_append_blanks _ _ _ hafter]
      rwa [← hlowered] at hparts
    have hlength := congrArg List.length hchars
    simp only [List.length_append] at hlength
    obtain rfl : before = [] := List.eq_nil_of_length_eq_zero (by omega)
    obtain rfl : after = [] := List.eq_nil_of_length_eq_zero (by omega)
    rw [List.nil_append, List.append_nil] at hsplit
    rw [trim, ← hsplit, String.ofList_toList]
  · intro h
    rw [h]

/-- A trimmed text has no white space around it. -/
theorem trimChars_trimChars (s : List Char) : trimChars (trimChars s) = trimChars s := by
  have hstart : (trimChars s).dropWhile isBlank = trimChars s := by
    cases htrimmed : trimChars s with
    | nil => rfl
    | cons c rest =>
      -- What is left of a text begins as the text does once white space before it is gone.
      obtain ⟨after, hafter⟩ : trimChars s <+: s.dropWhile isBlank := List.rdropWhile_prefix isBlank _
      rw [htrimmed, List.cons_append] at hafter
      have hc : isBlank c = false := by
        simpa [← hafter] using List.head_dropWhile_not isBlank (l := s) (by simp [← hafter])
      rw [List.dropWhile_cons_of_neg (by simp [hc])]
  have hend : trimChars (trimChars s) = trimEnd (trimChars s) := congrArg trimEnd hstart
  rw [hend]
  exact List.rdropWhile_idempotent isBlank _

@[simp] theorem trim_trim (s : String) : trim (trim s) = trim s := by
  simp [trim, trimChars_trimChars]

end Text

namespace Policy

/-- Names under which a store knows one entity lead to one entity policy. -/
theorem entity?_congr (p : Policy) {a b : String} (h : entityKey a = entityKey b) :
    p.entity? a = p.entity? b := by
  have hkey : lookupKey a = lookupKey b := by
    unfold lookupKey entityKey at *
    rw [Text.lower_trim, Text.lower_trim, h]
  rw [entity?, entity?, hkey]

end Policy

end GuardedQuery
