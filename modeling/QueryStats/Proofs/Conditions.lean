import QueryStats.Proofs.Operands

/-!
# Conditions

A condition is put together from operands by comparisons, `NOT`, `AND`, `OR` and parentheses.  A
call in it is an operand of the condition, and the scan takes it for one wherever more of the
condition follows, or a keyword stands before.  It does not do so at the end of the query behind a
comparison sign: there it asks for the call (`ofQuery_where`).
-/

namespace QueryStats.Written

open Text Query

/-! ## Comparisons -/

/-- Whether a character belongs to a comparison sign. -/
def isComparing (c : Char) : Bool := "=<>!".toList.contains c

/-- A word such as `LIKE`, and white space after it. -/
abbrev ComparingWord := Keyword [.like, .within, .is, .not] × Space

/-- What compares two operands. -/
inductive Comparison where
  /-- A sign such as `=` or `<>`. -/
  | sign (before : Gap) (sign : List Char) (after : Gap) (ne_nil : sign ≠ [])
    (isSign : ∀ c ∈ sign, isComparing c = true)
  /-- Words such as `LIKE` or `IS NOT`. -/
  | words (before : Space) (words : List ComparingWord) (ne_nil : words ≠ [])

def phrase (words : List ComparingWord) : List Char := words.flatMap fun w => w.1.text ++ w.2.text

def Comparison.text : Comparison → List Char
  | sign before s after _ _ => before.text ++ (s ++ after.text)
  | words before ws _ => before.text ++ phrase ws

theorem of_isComparing {c : Char} (h : isComparing c = true) : isSign c = true ∧ c ≠ ',' := by
  have hall : ∀ c ∈ "=<>!".toList, isSign c = true ∧ c ≠ ',' := by decide
  exact hall c (List.contains_iff_mem.1 h)

theorem phrase_cons (w : ComparingWord) (ws : List ComparingWord) :
    phrase (w :: ws) = w.1.text ++ (w.2.text ++ phrase ws) := by
  rw [phrase, List.flatMap_cons, List.append_assoc]
  rfl

theorem isInert_phrase (ws : List ComparingWord) : ∀ c ∈ phrase ws, isInert c = true := by
  intro c hc
  obtain ⟨w, -, hw⟩ := List.mem_flatMap.1 hc
  rcases List.mem_append.1 hw with h | h
  · exact w.1.isInert h
  · exact w.2.isInert h

theorem asks_phrase (ws : List ComparingWord) (seen : List Char) (t : List Cell) :
    Asks seen (phrase ws) t [] := by
  induction ws generalizing seen with
  | nil => exact asks_nil seen t
  | cons w ws ih =>
    rw [phrase_cons]
    apply Asks.skip w.1.balanced (w.1.asks (w.2.breaks _ t))
    exact Asks.skip w.2.balanced (w.2.asks _ _) (ih _)

/-- A call behind words that compare is an operand. -/
theorem follows_phrase {ws : List ComparingWord} (hne : ws ≠ []) {seen : List Char}
    (hs : Fresh seen) : Fresh (past seen (phrase ws)) ∧
      follows conditionWords (past seen (phrase ws)) = true := by
  induction ws generalizing seen with
  | nil => exact absurd rfl hne
  | cons w ws ih =>
    rw [phrase_cons, past_append w.1.balanced, past_append w.2.balanced]
    cases ws with
    | nil => exact ⟨w.2.fresh _, w.1.follows (by decide) w.2.toGap hs⟩
    | cons v ws => exact ih (List.cons_ne_nil v ws) (w.2.fresh _)

namespace Comparison

variable (c : Comparison)

theorem isInert_text : ∀ d ∈ c.text, isInert d = true := by
  intro d hd
  cases c with
  | sign before s after _ hs =>
    rcases List.mem_append.1 hd with h | h
    · exact before.isInert h
    rcases List.mem_append.1 h with h | h
    · exact (of_isBreak (of_isSign (of_isComparing (hs d h)).1).1).2
    · exact after.isInert h
  | words before ws _ =>
    rcases List.mem_append.1 hd with h | h
    · exact before.isInert h
    · exact isInert_phrase ws d h

theorem balanced_text : Balanced c.text := balanced_of_inert c.isInert_text

theorem asks (seen : List Char) (t : List Cell) : Asks seen c.text t [] := by
  cases c with
  | sign before s after _ hs =>
    have hsign : ∀ d ∈ s, isNameStart d = false ∧ isQuote d = false := by
      intro d hd
      obtain ⟨-, -, -, hquote, hstart⟩ := of_isSign (of_isComparing (hs d hd)).1
      exact ⟨hstart, hquote⟩
    apply Asks.skip before.balanced (before.asks _ _)
    apply Asks.skip (balanced_of_unquoted fun d hd => (hsign d hd).2) (asks_unquoted_dull hsign _ _)
    exact after.asks _ _
  | words before ws _ => exact Asks.skip before.balanced (before.asks _ _) (asks_phrase ws _ _)

/-- The operand before a comparison ends there, and it is not the last of a list. -/
theorem endsTerm (w : List Char) (t : List Cell) :
    EndsTerm (mask (c.text ++ w) ++ t) ∧ endsItem (mask (c.text ++ w) ++ t) = false := by
  cases c with
  | sign before s after hne hs =>
    obtain ⟨d, s, rfl⟩ := List.exists_cons_of_ne_nil hne
    obtain ⟨hd, hcomma⟩ := of_isComparing (hs d List.mem_cons_self)
    have htext : (sign before (d :: s) after hne hs).text ++ w =
        before.text ++ d :: (s ++ (after.text ++ w)) := by simp [text]
    rw [htext]
    exact ⟨before.endsTerm hd _ t, before.endsItem_sign hd hcomma _ t⟩
  | words before ws hne =>
    obtain ⟨v, ws, rfl⟩ := List.exists_cons_of_ne_nil hne
    have htext : (words before (v :: ws) hne).text ++ w =
        before.text ++ (v.1.text ++ (v.2.text ++ (phrase ws ++ w))) := by simp [text, phrase_cons]
    rw [htext]
    exact ⟨before.endsTerm v.1 (v.2.breaks _ t), before.endsItem v.1 (v.2.breaks _ t)⟩

/-- Whether a call behind the comparison may be asked for. -/
def isSigned : Comparison → Bool
  | sign .. => true
  | words .. => false

/-- A call behind a comparison is an operand if words compare, and it may be asked for if a sign
does. -/
theorem follows_text (seen : List Char) :
    Fresh (past seen c.text) ∧ follows conditionWords (past seen c.text) = !c.isSigned := by
  cases c with
  | sign before s after hne hs =>
    have hquote : ∀ d ∈ s, isQuote d = false := fun d hd =>
      (of_isSign (of_isComparing (hs d hd)).1).2.2.2.1
    obtain ⟨d, v, hv⟩ := List.exists_cons_of_ne_nil (List.reverse_ne_nil_iff.2 hne)
    have hd : isSign d = true := by
      refine (of_isComparing (hs d ?_)).1
      rw [← List.mem_reverse, hv]
      exact List.mem_cons_self
    rw [text, past_append before.balanced, past_append (balanced_of_unquoted hquote),
      past_of_unquoted hquote, hv, List.cons_append]
    exact ⟨after.fresh (fresh_cons (of_isSign hd).1 _), after.not_follows hd _⟩
  | words before ws hne =>
    rw [text, past_append before.balanced]
    exact follows_phrase hne (before.fresh seen)

end Comparison

/-! ## Conditions -/

/-- A condition. -/
inductive Condition where
  | operand (o : Operand)
  | compare (left : Operand) (c : Comparison) (right : Operand)
  | negation (not : Keyword [.not]) (after : Space) (p : Condition)
  | join (p : Condition) (before : Space) (word : Keyword [.and, .or]) (after : Space)
    (q : Condition)
  | group (before : Gap) (p : Condition) (after : Gap)

namespace Condition

def text : Condition → List Char
  | operand o => o.text
  | compare left c right => left.text ++ (c.text ++ right.text)
  | negation not after p => not.text ++ (after.text ++ p.text)
  | join p before word after q =>
    p.text ++ (before.text ++ (word.text ++ (after.text ++ q.text)))
  | group before p after => '(' :: (before.text ++ (p.text ++ (after.text ++ [')'])))

/-- The call that ends the condition right behind a comparison sign, if one does. -/
def comparedCall : Condition → Option Application
  | operand _ => none
  | compare _ c right => if c.isSigned then right.call? else none
  | negation _ _ p => p.comparedCall
  | join _ _ _ _ q => q.comparedCall
  | group _ _ _ => none

theorem balanced_text (p : Condition) : Balanced p.text := by
  induction p with
  | operand o => exact o.balanced_text
  | compare left c right =>
    exact left.balanced_text.append (c.balanced_text.append right.balanced_text)
  | negation not after p ih => exact not.balanced.append (after.balanced.append ih)
  | join p before word after q ihp ihq =>
    exact ihp.append (before.balanced.append (word.balanced.append (after.balanced.append ihq)))
  | group before p after ih =>
    have h : Balanced ['('] := by decide
    exact h.append (before.balanced.append (ih.append (after.balanced.append (by decide))))

theorem commentFree_text (p : Condition) : CommentFree p.text := by
  induction p with
  | operand o => exact o.commentFree_text
  | compare left c right =>
    exact left.commentFree_text.append left.balanced_text
      (CommentFree.inert_append c.isInert_text right.commentFree_text)
      (c.endsTerm right.text []).1.breaks.head
  | negation not after p ih =>
    exact CommentFree.inert_append (fun _ => not.isInert)
      (CommentFree.inert_append (fun _ => after.isInert) ih)
  | join p before word after q ihp ihq =>
    refine ihp.append p.balanced_text ?_ (before.breaks _ []).head
    exact CommentFree.inert_append (fun _ => before.isInert)
      (CommentFree.inert_append (fun _ => word.isInert)
        (CommentFree.inert_append (fun _ => after.isInert) ihq))
  | group before p after ih =>
    have hclose : CommentFree (after.text ++ [')']) :=
      CommentFree.inert_append (fun _ => after.isInert) (by decide)
    exact CommentFree.inert_append (s := ['(']) (by decide)
      (CommentFree.inert_append (fun _ => before.isInert)
        (ih.append p.balanced_text hclose (after.endsTerm (by decide) [] []).breaks.head))

/-- The scan asks for no call of a condition but the one that ends it behind a comparison sign, and
for that one where an item of a list may end. -/
theorem asks (p : Condition) {seen : List Char} (hs : Fresh seen) {t : List Cell} (ht : EndsTerm t)
    (hf : follows conditionWords seen = true ∨ endsItem t = false) :
    Asks seen p.text t
      (if endsItem t then p.comparedCall.toList.map Application.aggregation else []) := by
  induction p generalizing seen t with
  | operand o =>
    have hr : isRequested seen t = false := by
      unfold isRequested
      rcases hf with hf | hf <;> simp [hf]
    exact asks_of_none rfl (o.asks_nil hs ht hr) _
  | compare left c right =>
    obtain ⟨hend, hitem⟩ := c.endsTerm right.text t
    obtain ⟨hfresh, hfollows⟩ := c.follows_text (past seen left.text)
    have hleft := left.asks_nil hs hend (by rw [isRequested, hitem, Bool.false_and])
    have hright := right.asks hfresh ht
    have has : (if isRequested (past (past seen left.text) c.text) t then
          right.call?.toList.map Application.aggregation else []) =
        if endsItem t then (compare left c right).comparedCall.toList.map Application.aggregation
        else [] := by
      rw [isRequested, hfollows, Bool.not_not, comparedCall]
      cases endsItem t <;> cases c.isSigned <;> rfl
    rw [has] at hright
    exact hleft.skip left.balanced_text ((c.asks _ _).skip c.balanced_text hright)
  | negation not after p ih =>
    have hp := ih (after.fresh _) ht (Or.inl (not.follows (by decide) after.toGap hs))
    exact (not.asks (after.breaks _ t)).skip not.balanced ((after.asks _ _).skip after.balanced hp)
  | join p before word after q ihp ihq =>
    have hitem := before.endsItem word (after.breaks q.text t)
    have hp := ihp hs (before.endsTerm word (after.breaks q.text t)) (Or.inr hitem)
    rw [hitem, if_neg Bool.false_ne_true] at hp
    have hq := ihq (after.fresh _) ht
      (Or.inl (word.follows (by decide) after.toGap (before.fresh (past seen p.text))))
    apply hp.skip p.balanced_text
    apply (before.asks _ _).skip before.balanced
    apply (word.asks (after.breaks _ t)).skip word.balanced
    exact (after.asks _ _).skip after.balanced hq
  | group before p after ih =>
    have hopen : Balanced ['('] := by decide
    have hclose : isSign ')' = true := by decide
    have hitem := after.endsItem_sign hclose (by decide) [] t
    have hfresh : Fresh (past seen ['(']) := fresh_cons (by decide) seen
    have hp := ih (before.fresh hfresh) (after.endsTerm hclose [] t) (Or.inr hitem)
    rw [hitem, if_neg Bool.false_ne_true] at hp
    refine asks_of_none rfl ?_ _
    apply (asks_unquoted_dull (by decide) seen _).skip hopen
    apply (before.asks _ _).skip before.balanced
    apply hp.skip p.balanced_text
    exact (after.asks _ _).skip after.balanced (asks_unquoted_dull (by decide) _ t)

end Condition

/-! ## Queries with a condition -/

/-- The query that selects some aggregations where a condition holds. -/
def selectWhere (calls : List Call) (p : Condition) : List Char :=
  select calls ungrouped ++ (" WHERE ".toList ++ p.text)

/-- The condition `x > abs(y)`. -/
def greaterThanAbs : Condition :=
  .compare columnX (.sign blank.toGap ['>'] blank.toGap (by decide) (by decide)) (.call absY)

/-- The condition `NOT abs(y) LIKE 'by' AND x > abs(y)`. -/
def unlikeAndGreater : Condition :=
  .join
    (.negation ⟨.not, by decide, "NOT".toList, by decide⟩ blank
      (.compare (.call absY)
        (.words blank [(⟨.like, by decide, "LIKE".toList, by decide⟩, blank)] (by decide))
        (.string '\x27' ["by".toList] (by decide) (by decide))))
    blank ⟨.and, by decide, "AND".toList, by decide⟩ blank greaterThanAbs

example : String.ofList (selectWhere [countX] unlikeAndGreater) =
    "SELECT count(x) FROM t WHERE NOT abs(y) LIKE 'by' AND x > abs(y)" := by decide

end QueryStats.Written
