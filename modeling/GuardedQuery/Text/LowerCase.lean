import GuardedQuery.Text.CaseTable

/-!
# Lower case

Full lower-casing of a text. Every character has a lower-case form of its own except two: the capital
dotted i becomes two characters, and a capital sigma at the end of a word takes its final form.
-/

namespace GuardedQuery.Text

/-- Whether a code point lies in one of the ranges. -/
def inRanges (ranges : List (Nat × Nat)) (n : Nat) : Bool :=
  ranges.any fun (first, last) => first ≤ n && n ≤ last

/-- Whether case tests on a word skip the character. -/
def isCaseIgnorable (c : Char) : Bool := inRanges caseIgnorableRanges c.toNat

/-- Whether the character is a letter with case that case tests on a word do not skip. -/
def isCased (c : Char) : Bool := inRanges casedRanges c.toNat

/-- The lower-case form of a character that does not depend on its place in the text. -/
def lowerChar (c : Char) : List Char :=
  let n := c.toNat
  if n < 128 then [c.toLower]
  else if n = 0x130 then ['i', Char.ofNat 0x307]
  else
    match lowerRuns.find? fun (first, last, step, _) => first ≤ n && n ≤ last && (n - first) % step == 0 with
    | some (_, _, _, shift) => [Char.ofNat ((n : Int) + shift).toNat]
    | none => [c]

/-- Whether the first character that is not skipped is a letter with case. -/
def startsCased (s : List Char) : Bool :=
  match s.dropWhile isCaseIgnorable with
  | [] => false
  | c :: _ => isCased c

/-- Lowers the characters of a text; `before` holds those already read, the nearest first. -/
def lowerChars (before : List Char) : List Char → List Char
  | [] => []
  | c :: rest =>
    let lowered :=
      if c = 'Σ' then (if startsCased before && !startsCased rest then ['ς'] else ['σ']) else lowerChar c
    lowered ++ lowerChars (c :: before) rest

/-- The text in lower case. -/
def lower (s : String) : String := String.ofList (lowerChars [] s.toList)

end GuardedQuery.Text
