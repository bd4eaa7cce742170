import GuardedQuery.Json.Token
import GuardedQuery.Json.Writer
import Mathlib.Data.List.Basic

/-!
# Quoted texts

What is written between quotes is read back as the text it came from, and the reader stops at the closing
quote. So two quoted texts that begin the same characters are one text.

## Main statements

* `Json.quotedPieces_escape`: the pieces of an escaped text.
* `Json.joinPieces_pieces`: the pieces stand for the text.
* `Json.quoteChars_append_inj`: a quoted text tells where it ends.
-/

namespace GuardedQuery.Json

/-- The piece that an escaped character is read as. Control characters without a short escape are read as
UTF-16 units. -/
def pieceOf (c : Char) : Piece :=
  if c.toNat < 0x20 ∧ c ∉ ['\n', '\r', '\t', '\x08', '\x0c'] then .unit c.toNat else .char c

theorem hexValue?_hexDigit {n : Nat} (h : n < 16) : hexValue? (hexDigit n) = some n := by
  have hall : ∀ n < 16, hexValue? (hexDigit n) = some n := by decide
  exact hall n h

/-- A character that stands for itself between quotes. -/
theorem quotedPieces_plain {c : Char} (hquote : c ≠ '"') (hslash : c ≠ '\\') (hplain : ¬c.toNat < 0x20)
    (r : List Char) :
    quotedPieces (c :: r) = (quotedPieces r).map fun found => (.char c :: found.1, found.2) := by
  rw [quotedPieces.eq_def]
  split
  · rename_i h; simp at h
  · rename_i h; exact absurd (List.cons.inj h).1 hquote
  · rename_i h; exact absurd (List.cons.inj h).1 hslash
  · rename_i h; exact absurd (List.cons.inj h).1 hslash
  · rename_i h
    obtain ⟨rfl, rfl⟩ := List.cons.inj h
    rw [if_neg hplain]
    cases quotedPieces r <;> rfl

theorem quotedPieces_escapeChar (c : Char) (r : List Char) :
    quotedPieces (escapeChar c ++ r) = (quotedPieces r).map fun found => (pieceOf c :: found.1, found.2) := by
  have hshort : ∀ c ∈ ['"', '\\', '\n', '\r', '\t', '\x08', '\x0c'],
      quotedPieces (escapeChar c ++ r) = (quotedPieces r).map fun found => (pieceOf c :: found.1, found.2) := by
    simp only [List.forall_mem_cons, List.not_mem_nil, false_imp_iff, implies_true, and_true]
    refine ⟨?_, ?_, ?_, ?_, ?_, ?_, ?_⟩ <;>
      · simp [escapeChar, quotedPieces, shortEscape?, pieceOf]
        cases quotedPieces r <;> rfl
  by_cases hmem : c ∈ ['"', '\\', '\n', '\r', '\t', '\x08', '\x0c']
  · exact hshort c hmem
  simp only [List.mem_cons, List.not_mem_nil, or_false, not_or] at hmem
  obtain ⟨hquote, hslash, hn, hr, ht, hb, hf⟩ := hmem
  by_cases hcontrol : c.toNat < 0x20
  · have hhigh := hexValue?_hexDigit (n := c.toNat / 16) (by omega)
    have hlow := hexValue?_hexDigit (n := c.toNat % 16) (by omega)
    have hzero : hexValue? '0' = some 0 := by decide
    have hunit : hexUnit? '0' '0' (hexDigit (c.toNat / 16)) (hexDigit (c.toNat % 16)) = some c.toNat := by
      simp only [hexUnit?, hzero, hhigh, hlow, Option.bind_eq_bind, Option.bind_some, Option.pure_def,
        Option.some.injEq]
      omega
    simp only [escapeChar, hquote, hslash, hn, hr, ht, hb, hf, hcontrol, if_true, if_false, List.cons_append,
      List.nil_append, quotedPieces, hunit, pieceOf]
    cases quotedPieces r <;> simp [hn, hr, ht, hb, hf]
  · simp only [escapeChar, hquote, hslash, hn, hr, ht, hb, hf, hcontrol, if_false, List.cons_append,
      List.nil_append, quotedPieces_plain hquote hslash hcontrol, pieceOf, false_and]

/-- The pieces of an escaped text end at the closing quote. -/
theorem quotedPieces_escape (s r : List Char) :
    quotedPieces (s.flatMap escapeChar ++ '"' :: r) = some (s.map pieceOf, r) := by
  induction s with
  | nil => simp [quotedPieces]
  | cons c rest ih => simp [quotedPieces_escapeChar, ih]

theorem joinPieces_cons (c : Char) (ps : List Piece) :
    joinPieces (pieceOf c :: ps) = (joinPieces ps).map (c :: ·) := by
  rw [pieceOf]
  split
  · rename_i hcontrol
    have hhigh : isHighSurrogate c.toNat = false := by
      simp only [isHighSurrogate, Bool.and_eq_false_iff, decide_eq_false_iff_not]
      omega
    have hlow : isLowSurrogate c.toNat = false := by
      simp only [isLowSurrogate, Bool.and_eq_false_iff, decide_eq_false_iff_not]
      omega
    cases ps with
    | nil => simp [joinPieces, hhigh, hlow]
    | cons p rest => cases p <;> simp [joinPieces, hhigh, hlow]
  · rfl

/-- The pieces of an escaped text stand for the text. -/
theorem joinPieces_pieces (s : List Char) : joinPieces (s.map pieceOf) = some s := by
  induction s with
  | nil => rfl
  | cons c rest ih => simp [joinPieces_cons, ih]

/-- A quoted text tells where it ends. -/
theorem quoteChars_append_inj {s t : String} {r r' : List Char}
    (h : quoteChars s ++ r = quoteChars t ++ r') : s = t ∧ r = r' := by
  have hs := quotedPieces_escape s.toList r
  have ht := quotedPieces_escape t.toList r'
  have heq : s.toList.flatMap escapeChar ++ '"' :: r = t.toList.flatMap escapeChar ++ '"' :: r' := by
    simpa [quoteChars] using h
  rw [heq, ht] at hs
  obtain ⟨hpieces, hrest⟩ := Prod.mk.inj (Option.some.inj hs)
  have hsame : some t.toList = some s.toList := by
    rw [← joinPieces_pieces, ← joinPieces_pieces, hpieces]
  exact ⟨String.toList_inj.mp (Option.some.inj hsame).symm, hrest.symm⟩

end GuardedQuery.Json
