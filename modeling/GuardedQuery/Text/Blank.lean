/-!
# White space

The characters of the Unicode property `White_Space`, and trimming by it.
-/

namespace GuardedQuery.Text

/-- Whether a character has the property `White_Space`. -/
def isBlank (c : Char) : Bool :=
  let n := c.toNat
  (9 ≤ n && n ≤ 13) || n == 0x20 || n == 0x85 || n == 0xA0 || n == 0x1680
    || (0x2000 ≤ n && n ≤ 0x200A) || n == 0x2028 || n == 0x2029 || n == 0x202F || n == 0x205F
    || n == 0x3000

/-- The characters without the white space at either end. -/
def trimChars (s : List Char) : List Char :=
  ((s.dropWhile isBlank).reverse.dropWhile isBlank).reverse

/-- The text without the white space at either end. -/
def trim (s : String) : String := String.ofList (trimChars s.toList)

/-- Whether a text holds nothing but white space. -/
def isBlankText (s : String) : Bool := s.toList.all isBlank

/-- The text with the letters `A` to `Z` in lower case. -/
def lowerAscii (s : String) : String := s.map Char.toLower

/-- Vocabulary symbols are read without surrounding white space and without regard to the case of
ASCII letters; this is the form they are looked up in. -/
def symbol (s : String) : String := lowerAscii (trim s)

end GuardedQuery.Text
