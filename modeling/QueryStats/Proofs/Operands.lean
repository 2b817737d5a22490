import QueryStats.Proofs.Joining
import QueryStats.Proofs.RoundTrip

/-!
# Operands

An operand of a condition or a key of a sort order is a name, a string or a call without a label.
The scan asks for nothing in it but the call, and for the call only where one may be asked for
(`Operand.asks`).  What is asked for in a text behind a written query is added to the clause of the
query (`ofQuery_select_asks`).
-/

namespace QueryStats.Written

open Text Query

/-! ## Calls without a label -/

/-- A function applied to an argument. -/
structure Application where
  name : List Char
  argument : List Char
  start : name.head?.any isNameStart = true
  isName : ∀ c ∈ name, isNameChar c = true
  isArgument : IsArgument argument

namespace Application

variable (a : Application)

def text : List Char := a.name ++ '(' :: (a.argument ++ [')'])

/-- The aggregation that the call would ask for. -/
def aggregation : Aggregation where
  name := String.ofList a.name
  argument := String.ofList (trim a.argument)
  percentile := ""
  label := ""

/-- The call as it is read. -/
def read : Query.Call := ⟨shown a.name, mask a.argument, none⟩

theorem aggregation_read : a.read.aggregation = a.aggregation := by
  rw [Query.Call.aggregation, sourceText, read, sources_shown, sources_mask]
  rfl

theorem isQuote_name {c : Char} (h : c ∈ a.name) : isQuote c = false :=
  isQuote_of_isAliasChar (isAliasChar_of_isNameChar (a.isName c h))

theorem mask_text :
    mask a.text = shown a.name ++ .plain '(' :: (mask a.argument ++ [.plain ')']) := by
  rw [text, mask_unquoted_append fun _ => a.isQuote_name, mask_cons (by decide),
    mask_append a.isArgument.balanced]
  rfl

theorem balanced_text : Balanced a.text := by
  have h : Balanced ('(' :: (a.argument ++ [')'])) :=
    a.isArgument.balanced.append (t := [')']) (by decide)
  exact (balanced_of_unquoted fun _ => a.isQuote_name).append h

theorem commentFree_text : CommentFree a.text := by
  have h₁ : CommentFree (a.argument ++ [')']) :=
    a.isArgument.commentFree.append a.isArgument.balanced (by decide) (by simp)
  have h₂ : CommentFree ('(' :: (a.argument ++ [')'])) :=
    CommentFree.inert_append (s := ['(']) (by decide) h₁
  exact CommentFree.inert_append
    (fun c hc => isInert_of_isAliasChar (isAliasChar_of_isNameChar (a.isName c hc))) h₂

/-- The call is read as such when no `AS` clause follows. -/
theorem call?_text {t : List Cell} (ht : alias? t = none) :
    Query.call? (mask a.text ++ t) = some (a.read, t) := by
  apply call?_eq_some_iff.2
  refine ⟨mask a.text, rfl, .plain '(', .plain ')', [], a.mask_text, ?_, ?_, rfl, ?_, rfl, rfl, ?_⟩
  · show (shown a.name).head?.any (isNameStart ·.face) = true
    rw [shown, List.head?_map, Option.any_map]
    exact a.start
  · exact face_of_mem_shown a.isName
  · exact fun x hx => a.isArgument.noParenthesis x.face (List.mem_map_of_mem hx)
  · intro clause name rest h hc
    rw [alias?_eq_some_iff.2 ⟨clause, h, hc⟩] at ht
    cases ht

/-- The scan asks for the call just where a call is asked for. -/
theorem asks {seen : List Char} (hs : startsWord seen = true) {t : List Cell}
    (ht : alias? t = none) :
    Asks seen a.text t (if isRequested seen t then [a.aggregation] else []) := by
  have hr : read? seen (mask a.text ++ t) =
      some ([.call (mask a.text) a.read (isRequested seen t)], t) := by
    simp only [read?, hs, a.call?_text ht, upTo_append]
    rfl
  intro _
  rw [clauseFrom_of_read? hr, texts_cons, texts_nil, List.append_nil, Piece.text_call]
  congr 1
  cases isRequested seen t with
  | false => rfl
  | true =>
    show Clause.ofAggregations [a.read.aggregation] = _
    rw [a.aggregation_read]
    rfl

end Application

/-- Where there is no call, none is asked for under any condition. -/
theorem asks_of_none {seen w : List Char} {t : List Cell} {a : Option Application} (ha : a = none)
    (h : Asks seen w t []) (b : Bool) :
    Asks seen w t (if b then a.toList.map Application.aggregation else []) := by
  rw [ha]
  cases b <;> exact h

/-! ## Operands -/

/-- Some texts in a row, each between two quotes. -/
def quotedRuns (q : Char) (bodies : List (List Char)) : List Char :=
  bodies.flatMap fun body => q :: (body ++ [q])

/-- A column or a number, a string, or a call.  In a string a quote is written twice, so that the
string is more than one quoted run. -/
inductive Operand where
  | name (n : Name isFieldChar)
  | string (q : Char) (bodies : List (List Char)) (isQuote : isQuote q = true)
    (closed : ∀ body ∈ bodies, q ∉ body)
  | call (a : Application)

namespace Operand

def text : Operand → List Char
  | name n => n.text
  | string q bodies _ _ => quotedRuns q bodies
  | call a => a.text

/-- The call that the operand is. -/
def call? : Operand → Option Application
  | call a => some a
  | _ => none

end Operand

section

variable {q : Char} (hq : isQuote q = true)
include hq

theorem quotedRuns_closed {bodies : List (List Char)} (h : ∀ body ∈ bodies, q ∉ body) :
    Balanced (quotedRuns q bodies) ∧ CommentFree (quotedRuns q bodies) := by
  have hne : q ≠ '-' ∧ q ≠ '*' := by
    constructor <;>
      · rintro rfl
        exact absurd hq (by decide)
  induction bodies with
  | nil => exact ⟨balanced_nil, commentFree_nil⟩
  | cons body bodies ih =>
    rw [List.forall_mem_cons] at h
    obtain ⟨hb, hfree⟩ := ih h.2
    have hrun := balanced_quoted hq h.1
    refine ⟨hrun.append hb, (commentFree_quoted hq h.1).append hrun hfree fun c hc => ?_⟩
    cases bodies with
    | nil => cases hc
    | cons body' bodies =>
      obtain rfl : q = c := Option.some.inj hc
      exact hne

/-- Nothing is asked for in a quoted run. -/
theorem asks_quoted {body : List Char} (h : q ∉ body) (seen : List Char) (t : List Cell) :
    Asks seen (q :: (body ++ [q])) t [] := by
  have hstart : isNameStart q = false := by
    apply isNameStart_eq_false
    rw [← Bool.not_eq_true]
    intro ha
    rw [isQuote_of_isAliasChar ha] at hq
    cases hq
  apply asks_dull
  intro c hc
  rw [mask_quoted hq h, faces_cons, faces_append, List.mem_cons, List.mem_append] at hc
  rcases hc with rfl | hc | hc
  · exact hstart
  · obtain ⟨x, hx, rfl⟩ := List.mem_map.1 hc
    rw [face_of_mem_maskFrom_some h hx]
    rfl
  · rw [List.mem_singleton.1 hc]
    exact hstart

theorem asks_quotedRuns {bodies : List (List Char)} (h : ∀ body ∈ bodies, q ∉ body)
    (seen : List Char) (t : List Cell) : Asks seen (quotedRuns q bodies) t [] := by
  induction bodies generalizing seen with
  | nil => exact asks_nil seen t
  | cons body bodies ih =>
    rw [List.forall_mem_cons] at h
    exact (asks_quoted hq h.1 _ _).skip (balanced_quoted hq h.1) (ih h.2 _)

end

theorem Operand.balanced_text (o : Operand) : Balanced o.text := by
  cases o with
  | name n => exact n.balanced_text
  | string q bodies hq h => exact (quotedRuns_closed hq h).1
  | call a => exact a.balanced_text

theorem Operand.commentFree_text (o : Operand) : CommentFree o.text := by
  cases o with
  | name n => exact n.commentFree_text
  | string q bodies hq h => exact (quotedRuns_closed hq h).2
  | call a => exact a.commentFree_text

theorem Name.asks (n : Name isFieldChar) (seen : List Char) {t : List Cell} (ht : EndsTerm t) :
    Asks seen n.text t [] := by
  rcases n.text_cases with ⟨-, htext, -, hbare, -⟩ | ⟨q, hq, hnot, htext⟩
  · rw [htext]
    refine asks_bare (fun c hc => (hbare c hc).2) (fun c hc => ⟨?_, ?_⟩) seen ht
    · exact isBlank_of_isFieldChar (hbare c hc).1
    · rintro rfl
      exact absurd (hbare _ hc).1 (by decide)
  · rw [htext]
    exact asks_quoted (isQuote_of_eq hq) hnot seen t

/-- The scan asks for an operand where it is a call and a call is asked for. -/
theorem Operand.asks (o : Operand) {seen : List Char} (hs : Fresh seen) {t : List Cell}
    (ht : EndsTerm t) : Asks seen o.text t
      (if isRequested seen t then o.call?.toList.map Application.aggregation else []) := by
  cases o with
  | name n => exact asks_of_none rfl (n.asks seen ht) _
  | string q bodies hq h => exact asks_of_none rfl (asks_quotedRuns hq h seen t) _
  | call a => exact a.asks hs.startsWord ht.alias?

theorem Operand.asks_nil (o : Operand) {seen : List Char} (hs : Fresh seen) {t : List Cell}
    (ht : EndsTerm t) (hr : isRequested seen t = false) : Asks seen o.text t [] := by
  have h := o.asks hs ht
  rwa [hr, if_neg Bool.false_ne_true] at h

/-! ## Behind a query -/

section

variable (calls : List Call) (g : Grouping) {keyword : List Char}
  (hk : ∀ c ∈ keyword, isInert c = true)
include hk

theorem past_select_append :
    past [] (select calls g ++ keyword) = keyword.reverse ++ past [] (select calls g) := by
  rw [past_append (balanced_select calls g),
    past_of_unquoted fun c hc => isQuote_of_isInert (hk c hc)]

/-- What the scan asks for behind a query and a keyword that it passes over is added to the clause
of the query. -/
theorem ofQuery_select_asks {w : List Char} {as : List Aggregation} (hw : CommentFree w)
    (hhead : keyword.head? = some ' ') (hend : EndsItem (shown keyword ++ mask w))
    (hcomma : commaFollows (shown keyword ++ mask w) = false)
    (hpass : ∀ seen, clauseFrom seen (shown keyword ++ mask w) =
      clauseFrom (keyword.reverse ++ seen) (mask w))
    (hasks : Asks (past [] (select calls g ++ keyword)) w [] as)
    (hby : NoGrouping (past [] (select calls g ++ keyword)) (mask w)) :
    Clause.ofQuery (String.ofList (select calls g ++ (keyword ++ w))) =
      (Clause.ofQuery (String.ofList (select calls g))).andThen (.ofAggregations as) := by
  have hmask : mask (keyword ++ w) = shown keyword ++ mask w :=
    mask_unquoted_append (fun c hc => isQuote_of_isInert (hk c hc)) w
  have hsigns : ∀ c ∈ (keyword ++ w).head?, c ≠ '-' ∧ c ≠ '*' := by
    simp [List.head?_append, hhead]
  have hseen : (faces (mask (select calls g))).reverse = past [] (select calls g) :=
    (List.append_nil _).symm
  have hfound := hasks (by rwa [List.append_nil])
  rw [List.append_nil, clauseFrom_nil, Clause.andThen_ofAggregations_nil,
    past_select_append calls g hk] at hfound
  rw [ofQuery_select_append calls g (CommentFree.inert_append hk hw) hsigns (by rwa [hmask])
    (by rwa [hmask]), ofQuery_select, hmask, hseen, hpass, hfound]

end

/-! ## Some operands -/

/-- One blank. -/
def blank : Space := ⟨⟨[' '], by decide⟩, by decide⟩

/-- The column `x`. -/
def columnX : Operand := .name ⟨['x'], .bare, by decide, by decide, by decide, by decide⟩

/-- The call `abs(y)`. -/
def absY : Application :=
  ⟨"abs".toList, "y".toList, by decide, by decide, by decide, by decide, by decide⟩

/-- The aggregation `count(x)` as written. -/
def countX : Call where
  name := ['c', 'o', 'u', 'n', 't']
  argument := ['x']
  label := none
  start := by decide
  isName := by decide
  trimmed := by decide
  balanced := by decide
  noParenthesis := by decide
  commentFree := by decide

end QueryStats.Written
