import QueryStats.Proofs.Boundary

/-!
# Queries in a row

The clause of two queries with a pipe between them is the clause of the one and then that of the
other.  No look ahead in the first one passes the pipe, and no look behind in the second one does.
-/

namespace QueryStats.Query

open Text

variable {s : List Char} (hs : Pipeable s)

/-! ## Looking ahead -/

theorem skipBy?_append_fromPipe (t r : List Cell) :
    skipBy? (t ++ fromPipe r) = (skipBy? t).map (· ++ fromPipe r) := by
  simp only [skipBy?, skipKeyword?_append_fromPipe (k := "by") (by decide),
    Option.bind_eq_bind]
  rcases skipKeyword? "by" t with _ | rest
  · rfl
  · have he : endsWord (rest ++ fromPipe r) = endsWord rest := by cases rest <;> rfl
    simp only [Option.map_some, Option.bind_some, he]
    split <;> rfl

theorem skipGroupBy?_append_fromPipe (t r : List Cell) :
    skipGroupBy? (t ++ fromPipe r) = (skipGroupBy? t).map (· ++ fromPipe r) := by
  simp only [skipGroupBy?, skipKeyword?_append_fromPipe (k := "group") (by decide),
    Option.bind_eq_bind]
  rcases skipKeyword? "group" t with _ | t₁
  · rfl
  simp only [Option.map_some, Option.bind_some, skipSomeBlanks?_append_fromPipe]
  rcases skipSomeBlanks? t₁ with _ | t₂
  · rfl
  · exact skipBy?_append_fromPipe t₂ r

theorem groupingKeyword?_append_fromPipe (seen : List Char) (t r : List Cell) :
    groupingKeyword? seen (t ++ fromPipe r) =
      (groupingKeyword? seen t).map (Prod.map id (· ++ fromPipe r)) := by
  rw [groupingKeyword?, groupingKeyword?, skipGroupBy?_append_fromPipe, skipBy?_append_fromPipe]
  cases skipGroupBy? t <;> cases skipBy? t <;> rfl

theorem outside_of_skipBy? {s : List Char} {t rest : List Cell} (ht : t <:+ mask s)
    (h : skipBy? t = some rest) : Outside s rest := by
  simp only [skipBy?, Option.bind_eq_bind, Option.bind_eq_some_iff] at h
  obtain ⟨u, hu, h⟩ := h
  split at h
  · rw [← Option.some.inj h]
    exact outside_of_skipKeyword? (by decide) (by decide) ht hu
  · cases h

theorem outside_of_groupingKeyword? {s : List Char} {seen : List Char} {t rest : List Cell}
    {opens : Bool} (ht : t <:+ mask s) (h : groupingKeyword? seen t = some (opens, rest)) :
    Outside s rest := by
  simp only [groupingKeyword?, Option.or_eq_some_iff, Option.map_eq_some_iff, Prod.mk.injEq] at h
  rcases h with ⟨r, h, -, rfl⟩ | ⟨-, r, h, -, rfl⟩
  · simp only [skipGroupBy?, Option.bind_eq_bind, Option.bind_eq_some_iff] at h
    obtain ⟨t₁, h₁, t₂, h₂, h₃⟩ := h
    have hs₂ : t₂ <:+ mask s :=
      (skipSomeBlanks?_suffix h₂).trans ((skipKeyword?_suffix h₁).trans ht)
    exact outside_of_skipBy? hs₂ h₃
  · exact outside_of_skipBy? ht h

include hs in
/-- The reader reads the same before a pipe as before the end of the text. -/
theorem read?_append_fromPipe {t : List Cell} (ht : t <:+ mask s) (seen : List Char)
    (r : List Cell) :
    read? seen (t ++ fromPipe r) = (read? seen t).map (Prod.map id (· ++ fromPipe r)) := by
  rw [read?, read?]
  split
  · rfl
  rw [call?_append_fromPipe hs ht, groupingKeyword?_append_fromPipe]
  rcases call? t with _ | ⟨c, rest⟩
  · rcases hk : groupingKeyword? seen t with _ | ⟨opens, rest⟩
    · rfl
    · have ho : Outside s (rest.dropWhile Cell.isGap) :=
        (outside_of_groupingKeyword? ht hk).dropWhile fun _ => isQuote_of_isGap
      simp only [Option.map_none, Option.map_some, Prod.map_apply, id_eq, upTo_append_append,
        listPieces_append_fromPipe hs ho, Prod.map_fst, Prod.map_snd]
      cases opens <;> rfl
  · simp only [Option.map_some, Prod.map_apply, id_eq, upTo_append_append, isRequested,
      endsItem_append_fromPipe]

include hs in
/-- The scan reads a text before a pipe, and goes on at the pipe. -/
theorem piecesFrom_append_fromPipe {t : List Cell} (ht : t <:+ mask s) (seen : List Char)
    (r : List Cell) :
    piecesFrom seen (t ++ fromPipe r) =
      piecesFrom seen t ++ piecesFrom ((faces t).reverse ++ seen) (fromPipe r) := by
  fun_induction piecesFrom seen t with
  | case1 => rfl
  | case2 seen x t ps rest h ih =>
    have hr : read? seen (x :: t ++ fromPipe r) = some (ps, rest ++ fromPipe r) := by
      rw [read?_append_fromPipe hs ht, h]
      rfl
    rw [piecesFrom_of_read? hr, ih ((read?_leaves h).suffix.trans ht), (read?_append h).2,
      faces_append, List.reverse_append, List.append_assoc, List.append_assoc]
  | case3 seen x t h ih =>
    have hr : read? seen (x :: (t ++ fromPipe r)) = none := by
      rw [← List.cons_append, read?_append_fromPipe hs ht, h]
      rfl
    rw [List.cons_append, piecesFrom_of_none hr, ih ((List.suffix_cons x t).trans ht), faces_cons,
      List.reverse_cons, List.append_assoc]
    rfl

/-! ## Looking behind -/

theorem startsWord_append (w seen : List Char) : startsWord (w ++ '|' :: seen) = startsWord w := by
  cases w <;> rfl

theorem follows_append (words : List String) (w seen : List Char) :
    follows words (w ++ '|' :: seen) = follows words w := by
  rw [follows, follows, wordBefore_append (by decide) (Or.inr (by decide))]

theorem groupsBare_append (w seen : List Char) : groupsBare (w ++ '|' :: seen) = groupsBare w := by
  rw [groupsBare, groupsBare, follows_append, commandBefore_append]

/-- What is read after a pipe does not depend on what stands before it. -/
theorem read?_append_pipe (w seen : List Char) (t : List Cell) :
    read? (w ++ '|' :: seen) t = read? w t := by
  simp only [read?, startsWord_append, isRequested, follows_append, groupingKeyword?,
    groupsBare_append]

theorem piecesFrom_append_pipe (w seen : List Char) (t : List Cell) :
    piecesFrom (w ++ '|' :: seen) t = piecesFrom w t := by
  fun_induction piecesFrom w t with
  | case1 => rw [piecesFrom]
  | case2 w x t ps rest h ih =>
    rw [← read?_append_pipe w seen] at h
    rw [piecesFrom_of_read? h, ← List.append_assoc, ih]
  | case3 w x t h ih =>
    rw [← read?_append_pipe w seen] at h
    rw [piecesFrom_of_none h, ← List.cons_append, ih]

/-! ## The clause -/

include hs in
theorem clauseFrom_append_fromPipe (r : List Cell) :
    clauseFrom [] (mask s ++ fromPipe r) = (clauseFrom [] (mask s)).andThen (clauseFrom [] r) := by
  have hp (seen : List Char) : clauseFrom seen (fromPipe r) = clauseFrom [] r := by
    have hnone : read? seen (fromPipe r) = none := read?_eq_none seen rfl rfl rfl
    rw [fromPipe, clauseFrom_of_none hnone, clauseFrom, clauseFrom]
    exact congrArg Clause.ofPieces (piecesFrom_append_pipe [] seen r)
  rw [clauseFrom, piecesFrom_append_fromPipe hs List.suffix_rfl, Clause.ofPieces_append]
  exact congrArg (Clause.andThen _) (hp _)

end QueryStats.Query

namespace QueryStats

open Query

/-- Pipe composition: a query that ends outside quoted runs and comments, and whose last parenthesis
closes, is read before a pipe as it is read alone, and so is whatever follows the pipe. -/
theorem ofQuery_pipe {q₁ : String} (hr : regionAfter .code q₁.toList = .code)
    (hp : ((blankQuoted (stripComments q₁)).toList.filter isParenthesis).getLast? ≠ some '(')
    (q₂ : String) :
    Clause.ofQuery (q₁ ++ "|" ++ q₂) = (Clause.ofQuery q₁).andThen (Clause.ofQuery q₂) := by
  have hb : Balanced (stripFrom .code q₁.toList) := by
    have := quoteAfter_stripFrom .code q₁.toList
    rwa [hr] at this
  have hs : Pipeable (stripFrom .code q₁.toList) := by
    refine ⟨hb, ?_⟩
    rwa [blankQuoted, stripComments, String.toList_ofList, String.toList_ofList] at hp
  have ht : (q₁ ++ "|" ++ q₂).toList = q₁.toList ++ '|' :: q₂.toList := by
    rw [String.toList_append, String.toList_append, List.append_assoc]
    rfl
  have hc : stripFrom .code ('|' :: q₂.toList) = '|' :: stripFrom .code q₂.toList :=
    stripFrom_code_cons fun d _ => opensComment_left (by decide) (by decide) d
  rw [Clause.ofQuery, ht, stripFrom_append (by decide) (by decide) (by decide), hr, hc]
  show clauseFrom [] (mask (_ ++ '|' :: _)) = _
  rw [mask_append hb, mask_cons (by decide)]
  exact clauseFrom_append_fromPipe hs _

/-- A pipe in quotes and a closed comment before the pipe are no trouble. -/
theorem ofQuery_pipe_comment :
    Clause.ofQuery
        ("source=t | stats max('|') AS `a|b` /* by x */" ++ "|" ++ "stats count(y) by z") =
      (Clause.ofQuery "source=t | stats max('|') AS `a|b` /* by x */").andThen
        (Clause.ofQuery "stats count(y) by z") :=
  ofQuery_pipe (by decide +kernel) (by decide +kernel) _

end QueryStats
