import QueryStats.Text.Alphabetic
import QueryStats.Text.Blank
import QueryStats.Text.Mark
import QueryStats.Text.Numeral

/-!
# Words

Two classes of characters make up words.  A *word character* decides where a word begins and ends:
letters, combining marks, decimal digits, connecting punctuation and the two joiners, as of version
16 of Unicode.  A *name part* is a letter, a number of any kind or `_`, as of version 17.  The word
before a place in a text is the run of name parts that ends there, white space in between left out.
-/

namespace QueryStats.Text

/-- The characters of the general category `Pc` and those with the property `Join_Control`. -/
def connector : CharSet :=
  ⟨[(0x5F, 0x5F), (0x200C, 0x200D), (0x203F, 0x2040), (0x2054, 0x2054), (0xFE33, 0xFE34),
    (0xFE4D, 0xFE4F), (0xFF3F, 0xFF3F)]⟩

/-- The letters, marks and decimal digits that are new in version 17 of Unicode. -/
def newcomer : CharSet :=
  ⟨[(0x88F, 0x88F), (0xC5C, 0xC5C), (0xCDC, 0xCDC), (0x1ACF, 0x1ADD), (0x1AE0, 0x1AEB),
    (0xA7CE, 0xA7CF), (0xA7D2, 0xA7D2), (0xA7D4, 0xA7D4), (0xA7F1, 0xA7F1), (0x10940, 0x10959),
    (0x10EC5, 0x10EC7), (0x10EFA, 0x10EFB), (0x11B60, 0x11B67), (0x11DB0, 0x11DDB),
    (0x11DE0, 0x11DE9), (0x16EA0, 0x16EB8), (0x16EBB, 0x16ED3), (0x16FF2, 0x16FF6),
    (0x187F8, 0x187FF), (0x18D09, 0x18D1E), (0x18D80, 0x18DF2), (0x1E6C0, 0x1E6DE),
    (0x1E6E0, 0x1E6F5), (0x1E6FE, 0x1E6FF), (0x2B73A, 0x2B73F), (0x2CEA2, 0x2CEAD),
    (0x323B0, 0x33479)]⟩

/-- Whether a character belongs to a word: the class that word boundaries are judged by. -/
def isWord (c : Char) : Bool :=
  c.isAlphanum || connector.contains c ||
    0x80 ≤ c.toNat && !newcomer.contains c &&
      (alphabetic.contains c || mark.contains c || decimalNumber.contains c)

/-- Whether a character is a letter, a number or `_`. -/
def isNamePart (c : Char) : Bool :=
  c.isAlphanum || c = '_' ||
    0x80 ≤ c.toNat &&
      (alphabetic.contains c || decimalNumber.contains c || otherNumber.contains c)

/-- The word that a text ends with, white space after it left out.  The text is given backwards,
its last character first. -/
def wordBefore (before : List Char) : List Char :=
  ((before.dropWhile isBlank).takeWhile isNamePart).reverse

/-- A text cut in two at a byte offset of its UTF-8 form, the first part backwards; `none` where
the offset lies past the end or inside a character. -/
def splitAtByte? (before : List Char) : List Char → Nat → Option (List Char × List Char)
  | t, 0 => some (before, t)
  | [], _ + 1 => none
  | c :: t, n + 1 =>
    if c.utf8Size ≤ n + 1 then splitAtByte? (c :: before) t (n + 1 - c.utf8Size) else none

/-- The word before a byte offset; `none` where the offset lies past the end or inside a
character. -/
def precedingWord? (text : String) (pos : Nat) : Option String :=
  (splitAtByte? [] text.toList pos).map fun parts => String.ofList (wordBefore parts.1)

end QueryStats.Text
