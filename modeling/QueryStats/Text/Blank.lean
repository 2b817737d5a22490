import QueryStats.Text.CharSet

/-!
# White space

White space is the Unicode property `White_Space`: 25 characters in ten ranges.  Trimming removes
the longest run of them at an end of a text.
-/

namespace QueryStats.Text

/-- The characters with the property `White_Space`. -/
def whiteSpace : CharSet :=
  ⟨[(0x9, 0xD), (0x20, 0x20), (0x85, 0x85), (0xA0, 0xA0), (0x1680, 0x1680), (0x2000, 0x200A),
    (0x2028, 0x2029), (0x202F, 0x202F), (0x205F, 0x205F), (0x3000, 0x3000)]⟩

/-- Whether a character is white space. -/
def isBlank (c : Char) : Bool := whiteSpace.contains c

/-- The text without the white space it starts with. -/
def trimStart (t : List Char) : List Char := t.dropWhile isBlank

/-- The text without the white space it ends with. -/
def trimEnd (t : List Char) : List Char := (t.reverse.dropWhile isBlank).reverse

/-- The text without the white space at either end. -/
def trim (t : List Char) : List Char := trimEnd (trimStart t)

@[simp] theorem trim_nil : trim [] = [] := rfl

end QueryStats.Text
