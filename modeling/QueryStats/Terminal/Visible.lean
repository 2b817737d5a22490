/-!
# Visible characters

A line for a terminal holds visible characters and escape sequences.  A sequence begins with the
escape character; if `[` comes next, it lasts through the first ASCII letter, and otherwise it ends
there.  The length of a line counts its visible characters.  A line that is too long is cut: it
keeps its first visible characters and every sequence, and an ellipsis and the sequence that
restores the plain colour come after them.
-/

namespace QueryStats.Terminal

abbrev escape : Char := '\x1b'

/-- The sequence after which text is shown in green. -/
def green : List Char := [escape, '[', '3', '2', 'm']

/-- The sequence after which text is shown plainly. -/
def plain : List Char := [escape, '[', '0', 'm']

/-- The sign that stands for what was cut off. -/
abbrev ellipsis : Char := '…'

/-- What a place of a line is inside of. -/
inductive Within where
  /-- No escape sequence. -/
  | text
  /-- A sequence of which only the escape character has been seen. -/
  | opened
  /-- A sequence that lasts through the next letter. -/
  | sequence
  deriving DecidableEq, Repr

/-- Whether the next character is visible, and what the place after it is inside of. -/
def Within.next : Within → Char → Bool × Within
  | .sequence, c => (false, if c.isAlpha then .text else .sequence)
  | .opened, '[' => (false, .sequence)
  | _, c => if c = escape then (false, .opened) else (true, .text)

structure Glyph where
  char : Char
  visible : Bool
  deriving DecidableEq, Repr

/-- The characters of a line from a place on. -/
def glyphsFrom : Within → List Char → List Glyph
  | _, [] => []
  | w, c :: t => ⟨c, (w.next c).1⟩ :: glyphsFrom (w.next c).2 t

def glyphs (line : List Char) : List Glyph := glyphsFrom .text line

/-- The number of visible characters of a line. -/
def visibleLength (line : List Char) : Nat := (glyphs line).countP Glyph.visible

/-- A line without its visible characters but the first few. -/
def keepVisible : Nat → List Glyph → List Char
  | _, [] => []
  | 0, g :: gs => if g.visible then keepVisible 0 gs else g.char :: keepVisible 0 gs
  | n + 1, g :: gs => g.char :: keepVisible (if g.visible then n else n + 1) gs

def cut (width : Nat) (line : List Char) : List Char :=
  keepVisible (width - 1) (glyphs line) ++ ellipsis :: plain

/-- A line, cut if it is longer than a width. -/
def fit (width : Nat) (line : List Char) : List Char :=
  if visibleLength line ≤ width then line else cut width line

end QueryStats.Terminal
