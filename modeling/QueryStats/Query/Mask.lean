import QueryStats.Query.Quote

/-!
# Masked text

Masking hides the bodies of the quoted runs of a query, so that no word or sign inside one is taken
for a part of the query.  A hidden character shows as blanks, as many as its UTF-8 form has bytes;
so the masked text is as long as the query, byte for byte.  Each cell of masked text keeps the
character it stands for, and a part of the query found by its faces is read back from its sources.
-/

namespace QueryStats.Query

/-- One character of masked text. -/
structure Cell where
  /-- The character shown. -/
  face : Char
  /-- The character of the query that stands here; `none` for the blanks after the first of a
  hidden character. -/
  source : Option Char
  deriving DecidableEq, Repr

/-- A character that shows as itself. -/
def Cell.plain (c : Char) : Cell := ⟨c, some c⟩

/-- The cells of a hidden character. -/
def hidden (c : Char) : List Cell :=
  ⟨' ', some c⟩ :: List.replicate (c.utf8Size - 1) ⟨' ', none⟩

/-- The masked form of a text that starts outside quotes, or inside the run of a given quote. -/
def maskFrom : Option Char → List Char → List Cell
  | _, [] => []
  | none, c :: t => .plain c :: maskFrom (if isQuote c then some c else none) t
  | some q, c :: t =>
    if c = q then .plain c :: maskFrom none t else hidden c ++ maskFrom (some q) t

/-- The masked form of a text. -/
def mask (t : List Char) : List Cell := maskFrom none t

/-- What masked text shows. -/
def faces (cells : List Cell) : List Char := cells.map Cell.face

/-- The text that masked text stands for. -/
def sources (cells : List Cell) : List Char := cells.filterMap Cell.source

/-- A text with the bodies of its quoted runs blanked out, byte for byte. -/
def blankQuoted (text : String) : String := String.ofList (faces (mask text.toList))

@[simp] theorem faces_append (s t : List Cell) : faces (s ++ t) = faces s ++ faces t :=
  List.map_append

@[simp] theorem sources_append (s t : List Cell) : sources (s ++ t) = sources s ++ sources t :=
  List.filterMap_append

theorem sources_hidden (c : Char) : sources (hidden c) = [c] := by
  simp [sources, hidden]

theorem sources_maskFrom (q : Option Char) (t : List Char) : sources (maskFrom q t) = t := by
  induction t generalizing q with
  | nil => cases q <;> rfl
  | cons c t ih =>
    cases q with
    | none => exact congrArg (c :: ·) (ih _)
    | some q =>
      simp only [maskFrom]
      split
      · exact congrArg (c :: ·) (ih _)
      · rw [sources_append, sources_hidden, ih]; rfl

/-- Nothing is lost under the mask. -/
theorem sources_mask (t : List Char) : sources (mask t) = t := sources_maskFrom none t

end QueryStats.Query
