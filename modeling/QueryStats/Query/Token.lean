import QueryStats.Query.Mask
import QueryStats.Text.Keyword

/-!
# Tokens of masked text

A recogniser takes masked text and gives the cells it read together with the rest, or `none`.  A
field and an alias are each written in back quotes, in double quotes, or bare: as the longest run
of the characters that may stand in one.
-/

namespace QueryStats.Query

open Text

/-- Whether a cell shows white space. -/
def Cell.isBlank (x : Cell) : Bool := Text.isBlank x.face

/-- The text after the white space it starts with. -/
def skipBlanks (t : List Cell) : List Cell := t.dropWhile Cell.isBlank

/-- The text after the white space it starts with; `none` if it starts with none. -/
def skipSomeBlanks? : List Cell → Option (List Cell)
  | [] => none
  | x :: t => if x.isBlank then some (skipBlanks t) else none

/-- The text after a given character. -/
def skipChar? (c : Char) : List Cell → Option (List Cell)
  | [] => none
  | x :: t => if x.face = c then some t else none

/-- The text after a keyword, read under simple case folding; the keyword is given in lower
case. -/
def skipKeyword? (keyword : String) (t : List Cell) : Option (List Cell) :=
  dropKeyword? (fun x => fold x.face) keyword.toList t

/-- The longest run of cells at the front whose faces pass a test, which must not be empty. -/
def run? (p : Char → Bool) (t : List Cell) : Option (List Cell × List Cell) :=
  match t.takeWhile (p ·.face) with
  | [] => none
  | x :: run => some (x :: run, t.dropWhile (p ·.face))

/-- A quoted run at the front, quotes included. -/
def quoted? (q : Char) : List Cell → Option (List Cell × List Cell)
  | [] => none
  | x :: t =>
    if x.face = q then
      match t.dropWhile (·.face != q) with
      | [] => none
      | y :: rest => some (x :: t.takeWhile (·.face != q) ++ [y], rest)
    else none

/-- A name in back quotes, in double quotes, or bare with characters that pass a test. -/
def name? (p : Char → Bool) (t : List Cell) : Option (List Cell × List Cell) :=
  (quoted? backQuote t).or ((quoted? doubleQuote t).or (run? p t))

/-- Whether a character may stand in a bare alias. -/
def isAliasChar (c : Char) : Bool := isLetter c || c.isDigit || c = '_' || c = '.'

/-- Whether a character may stand in a bare field: any but white space, double quotes, back quotes,
parentheses, commas, semicolons and pipes. -/
def isFieldChar (c : Char) : Bool :=
  !(Text.isBlank c || c = ',' || c = '(' || c = ')' || c = backQuote || c = doubleQuote ||
    c = ';' || c = '|')

/-- A field as written. -/
def field? (t : List Cell) : Option (List Cell × List Cell) := name? isFieldChar t

/-- An `AS` clause: white space, the keyword, white space and the alias, which is given as
written. -/
def alias? (t : List Cell) : Option (List Cell × List Cell) := do
  let t ← skipSomeBlanks? t
  let t ← skipKeyword? "as" t
  let t ← skipSomeBlanks? t
  name? isAliasChar t

/-- The alias of an optional `AS` clause, and the text after the clause. -/
def optionalAlias (t : List Cell) : Option (List Cell) × List Cell :=
  match alias? t with
  | some (name, rest) => (some name, rest)
  | none => (none, t)

end QueryStats.Query
