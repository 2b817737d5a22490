import QueryStats.Proofs.Operands

/-!
# Sort orders

A sort order is a list of keys, each an operand with a direction or without one, and possibly a
limit after the last.  Behind `ORDER BY` the scan reads the keys as it would read a list of
aggregations: a key that is nothing but a call is asked for, unless a limit follows it
(`ofQuery_orderBy`).  A column named by `by` might open a list of what to group by, but only behind
an unquoted pipe (`noGrouping_selectOrdered`).
-/

namespace QueryStats.Written

open Text Query

/-! ## Keys -/

/-- White space and the word `ASC` or `DESC`. -/
abbrev Direction := Space × Keyword [.asc, .desc]

/-- A key of a sort order. -/
structure SortKey where
  operand : Operand
  direction : Option Direction

namespace SortKey

def directionText : Option Direction → List Char
  | none => []
  | some (before, word) => before.text ++ word.text

variable (k : SortKey)

def text : List Char := k.operand.text ++ directionText k.direction

/-- The call that is all of the key. -/
def call? : Option Application :=
  match k.direction with
  | none => k.operand.call?
  | some _ => none

theorem isInert_directionText (d : Option Direction) : ∀ c ∈ directionText d, isInert c = true := by
  intro c hc
  cases d with
  | none => cases hc
  | some d =>
    rcases List.mem_append.1 hc with h | h
    · exact d.1.isInert h
    · exact d.2.isInert h

theorem balanced_text : Balanced k.text :=
  k.operand.balanced_text.append (balanced_of_inert (isInert_directionText k.direction))

theorem commentFree_text : CommentFree k.text := by
  have hfree := commentFree_of_inert (isInert_directionText k.direction)
  refine k.operand.commentFree_text.append k.operand.balanced_text hfree ?_
  cases k.direction with
  | none => exact fun _ h => nomatch h
  | some d => exact (d.1.breaks d.2.text []).head

/-- A key is asked for if it is a call and may end an item of a list of aggregations. -/
theorem asks {seen : List Char} (hs : Fresh seen) (hf : follows conditionWords seen = false)
    {t : List Cell} (ht : EndsTerm t) :
    Asks seen k.text t (if endsItem t then k.call?.toList.map Application.aggregation else []) := by
  obtain ⟨operand, direction⟩ := k
  cases direction with
  | none =>
    have htext : (⟨operand, none⟩ : SortKey).text = operand.text := List.append_nil _
    rw [htext]
    have h := operand.asks hs ht
    rwa [isRequested, hf, Bool.not_false, Bool.and_true] at h
  | some d =>
    obtain ⟨before, word⟩ := d
    have hend := before.endsTerm word (w := []) (t := t) ht.breaks
    have hitem := before.endsItem word (w := []) (t := t) ht.breaks
    rw [List.append_nil] at hend hitem
    have ho := operand.asks_nil hs hend (by rw [isRequested, hitem, Bool.false_and])
    have hd : Asks (past seen operand.text) (before.text ++ word.text) t [] :=
      (before.asks _ _).skip before.balanced (word.asks ht.breaks)
    exact asks_of_none rfl (ho.skip operand.balanced_text hd) _

end SortKey

/-! ## Limits -/

/-- White space, the word `LIMIT` and a number. -/
structure Limit where
  before : Space
  word : Keyword [.limit]
  after : Space
  count : List Char
  isCount : IsDigits count

namespace Limit

variable (l : Limit)

def text : List Char := l.before.text ++ (l.word.text ++ (l.after.text ++ l.count))

theorem isAliasChar_count {c : Char} (h : c ∈ l.count) : isAliasChar c = true :=
  isAliasChar_of_isDigit (l.isCount.2 c h)

theorem isInert_text : ∀ c ∈ l.text, isInert c = true := by
  intro c hc
  rcases List.mem_append.1 hc with h | h
  · exact l.before.isInert h
  rcases List.mem_append.1 h with h | h
  · exact l.word.isInert h
  rcases List.mem_append.1 h with h | h
  · exact l.after.isInert h
  · exact isInert_of_isAliasChar (l.isAliasChar_count h)

theorem endsTerm : EndsTerm (mask l.text ++ []) :=
  l.before.endsTerm l.word (l.after.breaks l.count [])

theorem endsItem : endsItem (mask l.text ++ []) = false :=
  l.before.endsItem l.word (l.after.breaks l.count [])

/-- Nothing is asked for in a limit. -/
theorem asks (seen : List Char) : Asks seen l.text [] [] := by
  apply (l.before.asks _ _).skip l.before.balanced
  apply (l.word.asks (l.after.breaks l.count [])).skip l.word.balanced
  apply (l.after.asks _ _).skip l.after.balanced
  apply asks_unquoted_dull
  intro c hc
  exact ⟨isNameStart_of_isDigit (l.isCount.2 c hc),
    isQuote_of_isAliasChar (l.isAliasChar_count hc)⟩

end Limit

/-! ## Sort orders -/

/-- A sort order. -/
inductive SortOrder where
  | last (k : SortKey) (limit : Option Limit)
  | next (k : SortKey) (before after : Gap) (o : SortOrder)

namespace SortOrder

def limitText : Option Limit → List Char
  | none => []
  | some l => l.text

def text : SortOrder → List Char
  | last k limit => k.text ++ limitText limit
  | next k before after o => k.text ++ (before.text ++ ',' :: (after.text ++ o.text))

/-- The calls that are all of a key, without the last key where a limit follows it. -/
def calls : SortOrder → List Application
  | last k none => k.call?.toList
  | last _ (some _) => []
  | next k _ _ o => k.call?.toList ++ o.calls

theorem isInert_limitText (limit : Option Limit) : ∀ c ∈ limitText limit, isInert c = true := by
  cases limit with
  | none => exact fun _ h => nomatch h
  | some l => exact l.isInert_text

theorem commentFree_text (o : SortOrder) : CommentFree o.text := by
  induction o with
  | last k limit =>
    have hfree := commentFree_of_inert (isInert_limitText limit)
    refine k.commentFree_text.append k.balanced_text hfree ?_
    cases limit with
    | none => exact fun _ h => nomatch h
    | some l => exact (l.endsTerm.breaks).head
  | next k before after o ih =>
    have hsep : CommentFree (before.text ++ ',' :: (after.text ++ o.text)) := by
      apply CommentFree.inert_append fun _ => before.isInert
      apply CommentFree.inert_append (s := [',']) (by decide)
      exact CommentFree.inert_append (fun _ => after.isInert) ih
    refine k.commentFree_text.append k.balanced_text hsep ?_
    exact (before.endsTerm (by decide) (after.text ++ o.text) []).breaks.head

/-- The scan asks for the calls that are all of a key, in their order, and for nothing else. -/
theorem asks (o : SortOrder) {seen : List Char} (hs : Fresh seen)
    (hf : follows conditionWords seen = false) :
    Asks seen o.text [] (o.calls.map Application.aggregation) := by
  induction o generalizing seen with
  | last k limit =>
    cases limit with
    | none =>
      have htext : (last k none).text = k.text := List.append_nil _
      rw [htext]
      exact k.asks hs hf endsTerm_nil
    | some l =>
      have hk := k.asks hs hf l.endsTerm
      rw [l.endsItem, if_neg Bool.false_ne_true] at hk
      exact hk.skip k.balanced_text (l.asks _)
  | next k before after o ih =>
    have hcomma : isSign ',' = true := by decide
    have hk := k.asks hs hf (before.endsTerm hcomma (after.text ++ o.text) [])
    rw [before.endsItem_comma, if_pos rfl] at hk
    have hfresh : Fresh (past (past (past seen k.text) before.text) [',']) :=
      fresh_cons (by decide) _
    have ho := ih (after.fresh hfresh) (after.not_follows hcomma _)
    rw [calls, List.map_append]
    apply hk.append k.balanced_text
    apply (before.asks _ _).skip before.balanced
    apply (asks_unquoted_dull (w := [',']) (by decide) _ _).skip (by decide)
    exact (after.asks _ _).skip after.balanced ho

end SortOrder

/-! ## Queries with a sort order -/

/-- The query that selects some aggregations in an order. -/
def selectOrdered (calls : List Call) (g : Grouping) (o : SortOrder) : List Char :=
  select calls g ++ (" ORDER BY ".toList ++ o.text)

/-- The scan passes over the keyword `ORDER BY`. -/
theorem clauseFrom_orderBy (seen : List Char) (t : List Cell) :
    clauseFrom seen (shown " ORDER BY ".toList ++ t) =
      clauseFrom (" YB REDRO ".toList ++ seen) t := by
  have horder : Unread (shown "BY ".toList ++ t) seen " ORDER ".toList :=
    ⟨read?_eq_none _ rfl rfl rfl, rfl, rfl, rfl, rfl, rfl, rfl, trivial⟩
  have hby : Quiet (" REDRO ".toList ++ seen) (shown "BY".toList ++ (shown " ".toList ++ t)) :=
    ⟨rfl, rfl, fun _ _ => rfl⟩
  calc clauseFrom seen (shown " ORDER BY ".toList ++ t)
      = clauseFrom (" REDRO ".toList ++ seen) (shown "BY".toList ++ (shown " ".toList ++ t)) :=
        clauseFrom_shown horder
    _ = clauseFrom ("YB REDRO ".toList ++ seen) (shown " ".toList ++ t) :=
        clauseFrom_word (by decide +kernel) fun _ => hby
    _ = clauseFrom (" YB REDRO ".toList ++ seen) t :=
        clauseFrom_append_of_dull (by decide) _ t

/-- A query that selects some aggregations shows a `SELECT` first. -/
theorem faces_select_append (calls : List Call) (g : Grouping) (w : List Char) :
    ∃ v, faces (mask (select calls g ++ w)) = "SELECT ".toList ++ v := by
  unfold select
  generalize callList calls ++ (" FROM t".toList ++ groupBy g) = u
  rw [List.append_assoc, mask_unquoted_append (by decide), faces_append, faces_shown]
  exact ⟨_, rfl⟩

/-- No bare `BY` in a sort order groups where all pipes are quoted. -/
theorem noGrouping_selectOrdered {calls : List Call} {g : Grouping} {o : SortOrder}
    (h : '|' ∉ faces (mask (selectOrdered calls g o))) :
    NoGrouping (past [] (select calls g ++ " ORDER BY ".toList)) (mask o.text) := by
  have hkeyword : Balanced " ORDER BY ".toList := balanced_of_inert (by decide)
  rw [selectOrdered, ← List.append_assoc,
    mask_append ((balanced_select calls g).append hkeyword), faces_append, List.mem_append,
    not_or] at h
  obtain ⟨v, hv⟩ := faces_select_append calls g " ORDER BY ".toList
  rw [hv] at h
  rw [past, List.append_nil, hv]
  exact noGrouping_select (fun hm => h.1 (List.mem_append_right _ hm)) h.2

/-- A sort order adds to the clause of a query the calls that are all of a key, if no bare `BY` in
it groups: no field, no time bucket and no other aggregation. -/
theorem ofQuery_orderBy (calls : List Call) (g : Grouping) (o : SortOrder)
    (hby : NoGrouping (past [] (select calls g ++ " ORDER BY ".toList)) (mask o.text)) :
    Clause.ofQuery (String.ofList (selectOrdered calls g o)) =
      (Clause.ofQuery (String.ofList (select calls g))).andThen
        (.ofAggregations (o.calls.map Application.aggregation)) := by
  have hkeyword : ∀ c ∈ " ORDER BY ".toList, isInert c = true := by decide
  have hpast := past_select_append calls g hkeyword
  have hfresh : Fresh (past [] (select calls g ++ " ORDER BY ".toList)) := by
    rw [hpast]
    exact fresh_cons (c := ' ') (by decide) _
  have hfollows : follows conditionWords (past [] (select calls g ++ " ORDER BY ".toList)) =
      false := by
    rw [hpast]
    rfl
  exact ofQuery_select_asks calls g hkeyword o.commentFree_text rfl
    ⟨⟨rfl, stops_cons (x := .plain ' ') rfl _⟩, stops_cons (x := .plain ' ') rfl _, rfl⟩ rfl
    (fun seen => clauseFrom_orderBy seen _) (o.asks hfresh hfollows) hby

/-- The sort order `abs(y)`. -/
def byAbs : SortOrder := .last ⟨.call absY, none⟩ none

/-- The column `by`, from high to low. -/
def descendingBy : SortKey where
  operand := .name ⟨['b', 'y'], .bare, by decide, by decide, by decide, by decide⟩
  direction := some (blank, ⟨.desc, by decide, "DESC".toList, by decide⟩)

/-- The limit `LIMIT 10`. -/
def limitTen : Limit where
  before := blank
  word := ⟨.limit, by decide, "LIMIT".toList, by decide⟩
  after := blank
  count := "10".toList
  isCount := ⟨by decide, by decide⟩

/-- The sort order `abs(y), by DESC, abs(y) LIMIT 10`. -/
def byAbsLimited : SortOrder :=
  .next ⟨.call absY, none⟩ ⟨[], by decide⟩ blank.toGap
    (.next descendingBy ⟨[], by decide⟩ blank.toGap (.last ⟨.call absY, none⟩ (some limitTen)))

example : String.ofList (selectOrdered [countX] ungrouped byAbsLimited) =
    "SELECT count(x) FROM t ORDER BY abs(y), by DESC, abs(y) LIMIT 10" := by decide

/-- Of two calls in a sort order, the one before a comma is asked for. -/
theorem ofQuery_orderBy_byAbsLimited :
    NoGrouping (past [] (select [countX] ungrouped ++ " ORDER BY ".toList))
        (mask byAbsLimited.text) ∧
      Clause.ofQuery (String.ofList (selectOrdered [countX] ungrouped byAbsLimited)) =
        (Clause.ofQuery (String.ofList (select [countX] ungrouped))).andThen
          (.ofAggregations (byAbsLimited.calls.map Application.aggregation)) := by
  have hby : NoGrouping (past [] (select [countX] ungrouped ++ " ORDER BY ".toList))
      (mask byAbsLimited.text) := noGrouping_selectOrdered (by decide +kernel)
  exact ⟨hby, ofQuery_orderBy [countX] ungrouped byAbsLimited hby⟩

/-- A sort order may change the clause of a query. -/
theorem ofQuery_orderBy_ne_byAbs :
    Clause.ofQuery (String.ofList (selectOrdered [countX] ungrouped byAbs)) ≠
      Clause.ofQuery (String.ofList (select [countX] ungrouped)) := by
  decide +kernel

end QueryStats.Written
