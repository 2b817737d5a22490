import QueryStats.Proofs.RoundTrip

/-!
# Queries that group by a given list

A query that counts the rows of a table and groups them by a list, whatever the list is.  Its clause
is one count, what the pieces of the list ask for, and what the scan finds behind the list
(`ofQuery_groupedBy`).
-/

namespace QueryStats.Written

open Text Query

theorem isNameStart_count : "count".toList.head?.any isNameStart = true := rfl

theorem isNameChar_count : ∀ c ∈ "count".toList, isNameChar c = true := by decide

/-- The call `count(*)`. -/
def countAll : Call where
  name := "count".toList
  argument := ['*']
  label := none
  start := isNameStart_count
  isName := isNameChar_count
  trimmed := by decide
  balanced := by decide
  noParenthesis := by decide
  commentFree := by decide

/-- The text before the list of a query that groups by it. -/
def beforeList : List Char := "SELECT count(*) FROM t GROUP BY".toList

/-- The query that counts the rows of a table and groups them by a list. -/
def groupedBy (list : List Char) : String := String.ofList (beforeList ++ ' ' :: list)

theorem beforeList_append (list : List Char) :
    beforeList ++ ' ' :: list = select [countAll] ungrouped ++ (" GROUP BY ".toList ++ list) := rfl

/-- The list is read behind the keyword. -/
theorem read?_groupBy {seen : List Char} (hs : startsWord seen = true) {t rest : List Cell}
    {ps : List Piece} (h : listPieces (.plain ' ' :: t) = (ps, rest)) :
    read? seen (shown "GROUP BY".toList ++ .plain ' ' :: t) =
      some (.keyword (shown "GROUP BY".toList) true :: ps, rest) := by
  have hc : call? (shown "GROUP BY".toList ++ .plain ' ' :: t) = none := rfl
  have hk : groupingKeyword? seen (shown "GROUP BY".toList ++ .plain ' ' :: t) =
      some (true, .plain ' ' :: t) := rfl
  simp only [read?, hs, hc, hk, upTo_append, Option.map_some, h]
  rfl

/-- A query that groups by a list asks for one count, for what the pieces of the list ask for, and
for what the scan finds behind the list. -/
theorem ofQuery_groupedBy {list : List Char} (hfree : CommentFree list) {ps : List Piece}
    {rest : List Cell} (h : listPieces (.plain ' ' :: mask list) = (ps, rest)) :
    Clause.ofQuery (groupedBy list) =
      (Clause.ofAggregations [countAll.aggregation]).andThen ((Clause.ofPieces ps).andThen
        (clauseFrom (beforeList ++ faces (texts ps)).reverse rest)) := by
  have hmask : mask (" GROUP BY ".toList ++ list) =
      shown [' '] ++ (shown "GROUP BY".toList ++ .plain ' ' :: mask list) :=
    mask_unquoted_append (by decide) list
  have hend : EndsItem (mask (" GROUP BY ".toList ++ list)) := by
    rw [hmask]
    exact ⟨⟨rfl, stops_cons (x := .plain ' ') rfl _⟩, stops_cons (x := .plain ' ') rfl _, rfl⟩
  have hselect := ofQuery_select_append [countAll] ungrouped
    (CommentFree.inert_append (s := " GROUP BY ".toList) (by decide) hfree)
    (fun c hc => Option.some.inj hc ▸ by decide) hend (by rw [hmask]; rfl)
  have hseen : (faces (mask (select [countAll] ungrouped))).reverse =
      "SELECT count(*) FROM t".toList.reverse := by decide +kernel
  have hblank (u : List Cell) :
      clauseFrom "SELECT count(*) FROM t".toList.reverse (shown [' '] ++ u) =
        clauseFrom "SELECT count(*) FROM t ".toList.reverse u :=
    clauseFrom_shown ⟨read?_eq_none _ rfl rfl rfl, trivial⟩
  have hpieces : Clause.ofPieces (.keyword (shown "GROUP BY".toList) true :: ps) =
      Clause.ofPieces ps := rfl
  have hfaces : (faces (texts (.keyword (shown "GROUP BY".toList) true :: ps))).reverse ++
      "SELECT count(*) FROM t ".toList.reverse = (beforeList ++ faces (texts ps)).reverse := by
    rw [texts_cons, Piece.text_keyword, faces_append, faces_shown, List.reverse_append,
      List.reverse_append, List.append_assoc]
    rfl
  rw [groupedBy, beforeList_append, hselect, hmask, hseen, hblank,
    clauseFrom_of_read? (read?_groupBy rfl h), hpieces, hfaces]
  rfl

end QueryStats.Written
