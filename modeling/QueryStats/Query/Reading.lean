import QueryStats.Query.Grouping

/-!
# Reading a query into pieces

The masked text is read from left to right.  At each place a call is tried first, then a grouping
keyword with its list; where neither stands, one cell is passed over.  Both stand only where a word
may begin.
-/

namespace QueryStats.Query

/-- What is read at the front of a text: its pieces, and the text after them.  The faces before the
place are given backwards. -/
def read? (seen : List Char) (t : List Cell) : Option (List Piece × List Cell) :=
  if !startsWord seen then none
  else
    match call? t with
    | some (call, rest) => some ([.call (upTo t rest) call (isRequested seen rest)], rest)
    | none =>
      (groupingKeyword? seen t).map fun (opens, rest) =>
        if opens then (.keyword (upTo t rest) true :: (listPieces rest).1, (listPieces rest).2)
        else ([.keyword (upTo t rest) false], rest)

theorem skipBy?_leaves {t rest : List Cell} (h : skipBy? t = some rest) : Leaves t rest := by
  simp only [skipBy?, Option.bind_eq_bind, Option.bind_eq_some_iff] at h
  obtain ⟨r, hr, h⟩ := h
  split at h
  · obtain rfl := Option.some.inj h
    obtain ⟨word, rfl, hw⟩ := Text.dropKeyword?_append hr
    exact ⟨word, by rintro rfl; simp at hw, rfl⟩
  · simp at h

theorem skipGroupBy?_leaves {t rest : List Cell} (h : skipGroupBy? t = some rest) :
    Leaves t rest := by
  simp only [skipGroupBy?, Option.bind_eq_bind, Option.bind_eq_some_iff] at h
  obtain ⟨t₁, h₁, t₂, h₂, h₃⟩ := h
  exact (skipBy?_leaves h₃).of_suffix
    ((skipSomeBlanks?_suffix h₂).trans (skipKeyword?_suffix h₁))

theorem groupingKeyword?_leaves {seen : List Char} {t rest : List Cell} {opens : Bool}
    (h : groupingKeyword? seen t = some (opens, rest)) : Leaves t rest := by
  simp only [groupingKeyword?, Option.or_eq_some_iff, Option.map_eq_some_iff,
    Prod.mk.injEq] at h
  rcases h with ⟨r, h, -, rfl⟩ | ⟨-, r, h, -, rfl⟩
  · exact skipGroupBy?_leaves h
  · exact skipBy?_leaves h

theorem read?_append {seen : List Char} {t rest : List Cell} {ps : List Piece}
    (h : read? seen t = some (ps, rest)) : texts ps ≠ [] ∧ t = texts ps ++ rest := by
  simp only [read?] at h
  split at h
  · simp at h
  split at h
  · next call r hc =>
    simp only [Option.some.injEq, Prod.mk.injEq] at h
    obtain ⟨rfl, rfl⟩ := h
    obtain ⟨s, hs, rfl⟩ := call?_leaves hc
    simpa using hs
  · simp only [Option.map_eq_some_iff] at h
    obtain ⟨⟨opens, r⟩, hk, h⟩ := h
    obtain ⟨s, hs, rfl⟩ := groupingKeyword?_leaves hk
    cases opens
    · simp only [Bool.false_eq_true, if_false, Prod.mk.injEq] at h
      obtain ⟨rfl, rfl⟩ := h
      simpa using hs
    · simp only [if_true, Prod.mk.injEq] at h
      obtain ⟨rfl, rfl⟩ := h
      simp [hs, texts_listPieces]

theorem read?_leaves {seen : List Char} {t rest : List Cell} {ps : List Piece}
    (h : read? seen t = some (ps, rest)) : Leaves t rest := leaves_of_append (read?_append h)

/-- The pieces of a text.  The faces before it are given backwards. -/
def piecesFrom (seen : List Char) (t : List Cell) : List Piece :=
  match t with
  | [] => []
  | x :: t =>
    match _h : read? seen (x :: t) with
    | some (ps, rest) => ps ++ piecesFrom ((faces (texts ps)).reverse ++ seen) rest
    | none => .other x :: piecesFrom (x.face :: seen) t
termination_by t.length
decreasing_by
  · exact (read?_leaves _h).length_lt
  · exact Nat.lt_succ_self t.length

/-- The pieces of a masked text. -/
def pieces (t : List Cell) : List Piece := piecesFrom [] t

end QueryStats.Query
