import QueryStats.Proofs.Listing

/-!
# The clause of a scan

The pieces of a text make up the clause of what the scan reads, part after part (`Clause.andThen`).
The scan passes over a cell where nothing is read (`clauseFrom_of_none`) and goes on after what it
reads (`clauseFrom_of_read?`); so the clause of a written text is put together from its parts.
-/

namespace QueryStats

open Query

/-! ## One clause after another -/

/-- The clause that asks for what one clause asks for and then for what another does. -/
def Clause.andThen (c d : Clause) : Clause where
  aggregations := c.aggregations ++ d.aggregations
  grouping :=
    { fields := c.grouping.fields ++ d.grouping.fields
      bucket := d.grouping.bucket.or c.grouping.bucket }

/-- The clause that asks for some aggregations. -/
def Clause.ofAggregations (as : List Aggregation) : Clause := ⟨as, ⟨[], none⟩⟩

/-- The clause that groups. -/
def Clause.ofGrouping (g : Grouping) : Clause := ⟨[], g⟩

@[simp] theorem Clause.ofAggregations_nil_andThen (c : Clause) :
    (ofAggregations []).andThen c = c := by
  simp [andThen, ofAggregations]

@[simp] theorem Clause.andThen_ofAggregations_nil (c : Clause) :
    c.andThen (ofAggregations []) = c := by
  simp [andThen, ofAggregations]

theorem Clause.andThen_assoc (c d e : Clause) :
    (c.andThen d).andThen e = c.andThen (d.andThen e) := by
  simp [andThen, Option.or_assoc]

theorem Clause.ofAggregations_cons_andThen (a : Aggregation) (as : List Aggregation) (c : Clause) :
    (ofAggregations (a :: as)).andThen c =
      (ofAggregations [a]).andThen ((ofAggregations as).andThen c) := by
  rw [← andThen_assoc]
  rfl

theorem Clause.ofPieces_append (ps qs : List Piece) :
    ofPieces (ps ++ qs) = (ofPieces ps).andThen (ofPieces qs) := by
  simp [ofPieces, andThen, Option.map_or]

/-! ## The scan -/

/-- The clause of what the scan reads from a place on. -/
def clauseFrom (seen : List Char) (t : List Cell) : Clause := .ofPieces (piecesFrom seen t)

@[simp] theorem clauseFrom_nil (seen : List Char) : clauseFrom seen [] = .ofAggregations [] := by
  rw [clauseFrom, piecesFrom]
  rfl

theorem piecesFrom_of_read? {seen : List Char} {t rest : List Cell} {ps : List Piece}
    (h : read? seen t = some (ps, rest)) :
    piecesFrom seen t = ps ++ piecesFrom ((faces (texts ps)).reverse ++ seen) rest := by
  cases t with
  | nil => exact absurd (read?_leaves h).length_lt (Nat.not_lt_zero _)
  | cons x t =>
    rw [piecesFrom]
    split
    · next ps' rest' h' =>
      rw [h, Option.some.injEq, Prod.mk.injEq] at h'
      obtain ⟨rfl, rfl⟩ := h'
      rfl
    · next h' => rw [h] at h'; cases h'

theorem piecesFrom_of_none {seen : List Char} {x : Cell} {t : List Cell}
    (h : read? seen (x :: t) = none) :
    piecesFrom seen (x :: t) = .other x :: piecesFrom (x.face :: seen) t := by
  rw [piecesFrom]
  split
  · next h' => rw [h] at h'; cases h'
  · rfl

theorem clauseFrom_of_read? {seen : List Char} {t rest : List Cell} {ps : List Piece}
    (h : read? seen t = some (ps, rest)) :
    clauseFrom seen t =
      (Clause.ofPieces ps).andThen (clauseFrom ((faces (texts ps)).reverse ++ seen) rest) := by
  rw [clauseFrom, piecesFrom_of_read? h, Clause.ofPieces_append]
  rfl

theorem clauseFrom_of_none {seen : List Char} {x : Cell} {t : List Cell}
    (h : read? seen (x :: t) = none) :
    clauseFrom seen (x :: t) = clauseFrom (x.face :: seen) t := by
  rw [clauseFrom, piecesFrom_of_none h]
  rfl

/-- Whether nothing is read at any place of a text that is followed by another one. -/
def Unread (t : List Cell) : List Char → List Char → Prop
  | _, [] => True
  | seen, c :: w => read? seen (.plain c :: (shown w ++ t)) = none ∧ Unread t (c :: seen) w

theorem clauseFrom_shown {t : List Cell} {seen w : List Char} (h : Unread t seen w) :
    clauseFrom seen (shown w ++ t) = clauseFrom (w.reverse ++ seen) t := by
  induction w generalizing seen with
  | nil => rfl
  | cons c w ih =>
    rw [shown_cons, List.cons_append, clauseFrom_of_none h.1, face_plain, ih h.2,
      List.reverse_cons, List.append_assoc, List.singleton_append]

/-- Nothing is read where neither a call nor a grouping keyword starts. -/
theorem read?_eq_none (seen : List Char) {t : List Cell} (hc : call? t = none)
    (hg : skipGroupBy? t = none) (hb : skipBy? t = none) : read? seen t = none := by
  rw [read?, hc, groupingKeyword?, hg, hb]
  cases startsWord seen <;> rfl

/-! ## What came before -/

open Text

/-- The word before a place does not depend on what precedes a character that is no part of it. -/
theorem wordBefore_append {d : Char} (hd : isNamePart d = false) {s : List Char}
    (h : (∃ c ∈ s, isBlank c = false) ∨ isBlank d = false) (t : List Char) :
    wordBefore (s ++ d :: t) = wordBefore s := by
  have hblank : (∃ c ∈ s, isBlank c = false) ∨ ∀ c ∈ (d :: t).head?, isBlank c = false :=
    h.imp_right fun hd c hc => Option.some.inj hc ▸ hd
  have hname : ∀ c ∈ (d :: t).head?, isNamePart c = false := fun c hc => Option.some.inj hc ▸ hd
  rw [wordBefore, wordBefore, (takeWhile_dropWhile_append hblank).2,
    (takeWhile_dropWhile_append (Or.inr hname)).1]

/-- The command that a text ends in does not depend on what precedes its last pipe. -/
theorem commandBefore_append (s t : List Char) :
    commandBefore (s ++ '|' :: t) = commandBefore s := by
  have hp : ∀ c ∈ ('|' :: t).head?, (c != '|') = false := fun c hc => Option.some.inj hc ▸ by decide
  rw [commandBefore, commandBefore, (takeWhile_dropWhile_append (Or.inr hp)).1]

theorem commandBefore_reverse {s : List Char} (hs : '|' ∉ s) :
    commandBefore s.reverse = trimStart s := by
  have hp : ∀ c ∈ s.reverse, (c != '|') = true := by
    intro c hc
    rw [bne_iff_ne]
    rintro rfl
    exact hs (List.mem_reverse.1 hc)
  rw [commandBefore, List.takeWhile_eq_self_iff.2 hp, List.reverse_reverse]

/-- No bare `BY` groups behind a `SELECT` without a pipe. -/
theorem groupsBare_select_append {s : List Char} (hs : '|' ∉ s) :
    groupsBare ("SELECT ".toList ++ s).reverse = false := by
  have hpipe : '|' ∉ "SELECT ".toList ++ s := List.not_mem_append (by decide) hs
  -- What precedes is all of one command, which is neither `STATS` nor `EVENTSTATS`.
  rw [groupsBare, commandBefore_reverse hpipe]
  exact Bool.and_false _

end QueryStats
