import QueryStats.Query.Piece
import QueryStats.Query.Leaves

/-!
# Grouping keywords and lists

`GROUP BY` always opens a list of what to group by.  A bare `BY` does so only in the command
`STATS` or `EVENTSTATS` of a piped query, and never after a word such as `ORDER`.

An item of the list is a time bucket or a field.  Items are separated by one or more commas, and
commas before the first one are passed over.  A field that a parenthesis follows is the name of a
call: it is dropped, and the list ends.
-/

namespace QueryStats.Query

open Text

/-- Whether a word may begin after the given text, which ends in no word.  The text is given
backwards. -/
def startsWord : List Char → Bool
  | [] => true
  | c :: _ => !isWord c

/-- Whether a word may end before the given text, which begins with no word. -/
def endsWord : List Cell → Bool
  | [] => true
  | x :: _ => !isWord x.face

/-- The text after the keyword `BY`. -/
def skipBy? (t : List Cell) : Option (List Cell) := do
  let rest ← skipKeyword? "by" t
  if endsWord rest then some rest else none

/-- The text after the keyword `GROUP BY`. -/
def skipGroupBy? (t : List Cell) : Option (List Cell) := do
  let t ← skipKeyword? "group" t
  let t ← skipSomeBlanks? t
  skipBy? t

/-- The words after which a bare `BY` does not group. -/
def orderingWords : List String := ["order", "sort", "partition", "cluster", "distribute"]

/-- The commands of a piped query in which a bare `BY` groups. -/
def statsCommands : List String := ["stats", "eventstats"]

/-- The command that a text ends in: what follows its last pipe, after white space.  The text is
given backwards. -/
def commandBefore (before : List Char) : List Char :=
  trimStart (before.takeWhile (· != '|')).reverse

/-- Whether a bare `BY` after the given text groups.  The text is given backwards. -/
def groupsBare (before : List Char) : Bool :=
  !follows orderingWords before &&
    statsCommands.any fun command =>
      startsWithKeywordBy id command.toList (commandBefore before)

/-- A grouping keyword at the front: whether it opens a list, and the text after it. -/
def groupingKeyword? (before : List Char) (t : List Cell) : Option (Bool × List Cell) :=
  ((skipGroupBy? t).map (true, ·)).or ((skipBy? t).map (groupsBare before, ·))

/-- Whether a cell stands between two items of a list. -/
def Cell.isGap (x : Cell) : Bool := x.isBlank || x.face = ','

/-- Whether, after white space, a parenthesis opens. -/
def opensParenthesis (t : List Cell) : Bool := (skipChar? '(' (skipBlanks t)).isSome

/-- Whether a comma comes before the next item. -/
def commaFollows (t : List Cell) : Bool := (t.takeWhile Cell.isGap).any (·.face = ',')

/-- The cells of a text before a rest of it. -/
def upTo (t rest : List Cell) : List Cell := t.take (t.length - rest.length)

@[simp] theorem upTo_append (s rest : List Cell) : upTo (s ++ rest) rest = s := by
  simp [upTo]

theorem Leaves.upTo_append {t rest : List Cell} (h : Leaves t rest) : upTo t rest ++ rest = t := by
  obtain ⟨s, -, rfl⟩ := h
  simp

/-- The item of a list at the front. -/
def item? (t : List Cell) : Option (Piece × List Cell) :=
  match bucketing? t with
  | some (b, rest) => some (.bucketing (upTo t rest) b, rest)
  | none =>
    (field? t).map fun (name, rest) =>
      (if opensParenthesis rest then .callee name else .field name, rest)

theorem item?_append {t rest : List Cell} {p : Piece} (h : item? t = some (p, rest)) :
    p.text ≠ [] ∧ t = p.text ++ rest := by
  simp only [item?] at h
  split at h
  · next b r hb =>
    simp only [Option.some.injEq, Prod.mk.injEq] at h
    obtain ⟨rfl, rfl⟩ := h
    obtain ⟨s, hs, rfl⟩ := bucketing?_leaves hb
    simpa using hs
  · simp only [Option.map_eq_some_iff, Prod.mk.injEq] at h
    obtain ⟨⟨name, r⟩, hf, rfl, rfl⟩ := h
    have := name?_append hf
    split <;> exact this

theorem item?_leaves {t rest : List Cell} {p : Piece} (h : item? t = some (p, rest)) :
    Leaves t rest := leaves_of_append (item?_append h)

/-- The pieces of a list of what to group by, and the text after it. -/
def listPieces (t : List Cell) : List Piece × List Cell :=
  let gap := Piece.gap (t.takeWhile Cell.isGap)
  match _h : item? (t.dropWhile Cell.isGap) with
  | none => ([gap], t.dropWhile Cell.isGap)
  | some (item, rest) =>
    if commaFollows rest then
      (gap :: item :: (listPieces rest).1, (listPieces rest).2)
    else ([gap, item], rest)
termination_by t.length
decreasing_by exact ((item?_leaves _h).of_suffix (List.dropWhile_suffix _)).length_lt

/-- A list loses no cell. -/
theorem texts_listPieces (t : List Cell) : texts (listPieces t).1 ++ (listPieces t).2 = t := by
  fun_induction listPieces t with
  | case1 t gap h => simp [gap]
  | case2 t gap item rest h hc ih =>
    simp [gap, ih, ← (item?_append h).2, List.takeWhile_append_dropWhile]
  | case3 t gap item rest h hc =>
    simp [gap, ← (item?_append h).2, List.takeWhile_append_dropWhile]

end QueryStats.Query
