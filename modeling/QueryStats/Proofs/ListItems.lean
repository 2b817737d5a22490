import QueryStats.Proofs.Bucketings
import QueryStats.Proofs.Grouped
import QueryStats.Proofs.Passing

/-!
# Items of a list that are more than one token

A field of a list is one token: a run between back quotes, one between double quotes, or a run of
bare characters.  An item may be more than that, as a qualified name with a quoted part is.  A list
is read item by item up to the first that is no single token; of that one the leading token is read,
and the list ends there (`ofQuery_items`).
-/

namespace QueryStats.Query

open Text Written

/-! ## Characters outside quoted runs -/

/-- The characters of a text outside its quoted runs, given the quote whose run is open. -/
def unquoted : Option Char → List Char → List Char
  | _, [] => []
  | none, c :: t => if isQuote c then unquoted (some c) t else c :: unquoted none t
  | some q, c :: t => unquoted (if c = q then none else some q) t

theorem unquoted_append (q : Option Char) (s t : List Char) :
    unquoted q (s ++ t) = unquoted q s ++ unquoted (quoteAfter q s) t := by
  induction s generalizing q with
  | nil => cases q <;> cases t <;> rfl
  | cons c s ih =>
    rw [List.cons_append, quoteAfter_cons]
    cases q with
    | none =>
      rw [unquoted, unquoted, nextQuote]
      split
      · exact ih _
      · rw [ih, List.cons_append]
    | some q =>
      rw [unquoted, unquoted, nextQuote]
      exact ih _

/-- A cell of masked text shows a character outside quoted runs, a quote or a blank. -/
theorem face_of_mem_maskFrom {q : Option Char} (hq : NamesQuote q) {t : List Char} {x : Cell}
    (hx : x ∈ maskFrom q t) : x.face ∈ unquoted q t ∨ isQuote x.face = true ∨ x.face = ' ' := by
  induction t generalizing q with
  | nil => cases q <;> cases hx
  | cons c t ih =>
    cases q with
    | none =>
      rw [maskFrom_none_cons, List.mem_cons] at hx
      by_cases hc : isQuote c = true
      · rcases hx with rfl | hx
        · exact Or.inr (Or.inl hc)
        · have := ih (hq.next c) hx
          rw [nextQuote, if_pos hc] at this
          rwa [unquoted, if_pos hc]
      · rw [unquoted, if_neg hc]
        rcases hx with rfl | hx
        · exact Or.inl List.mem_cons_self
        · have := ih (hq.next c) hx
          rw [nextQuote, if_neg hc] at this
          exact this.imp_left (List.mem_cons_of_mem c)
    | some q =>
      rw [unquoted]
      by_cases hc : c = q
      · subst hc
        rw [maskFrom_self_cons, List.mem_cons] at hx
        rw [if_pos rfl]
        rcases hx with rfl | hx
        · exact Or.inr (Or.inl hq.isQuote)
        · exact ih namesQuote_none hx
      · rw [maskFrom_hidden_cons hc, List.mem_append] at hx
        rw [if_neg hc]
        rcases hx with hx | hx
        · exact Or.inr (Or.inr (face_of_mem_hidden hx))
        · exact ih hq hx

/-- The last cell of a balanced text is a quote, or a character outside quoted runs. -/
theorem exists_concat_mask {t : List Char} (hb : Balanced t) (hne : t ≠ []) :
    ∃ m c, mask t = m ++ [.plain c] ∧ (isQuote c = true ∨ c ∈ unquoted none t) := by
  rcases List.eq_nil_or_concat t with rfl | ⟨s, c, rfl⟩
  · exact absurd rfl hne
  rw [List.concat_eq_append] at hb ⊢
  have hafter : nextQuote (quoteAfter none s) c = none := by
    rwa [Balanced, quoteAfter_append, quoteAfter_cons] at hb
  rw [mask, maskFrom_append, unquoted_append]
  have hq := namesQuote_none.after s
  generalize quoteAfter none s = q at hafter hq
  cases q with
  | none =>
    have hc : isQuote c = false := by
      rw [← Bool.not_eq_true]
      intro hc
      rw [nextQuote, if_pos hc] at hafter
      cases hafter
    refine ⟨_, c, rfl, Or.inr (List.mem_append_right _ ?_)⟩
    rw [unquoted, hc]
    exact List.mem_cons_self
  | some q =>
    have hc : c = q := by
      by_contra hc
      rw [nextQuote, if_neg hc] at hafter
      cases hafter
    subst hc
    refine ⟨maskFrom none s, c, ?_, Or.inl hq.isQuote⟩
    rw [maskFrom_self_cons]
    rfl

/-! ## Texts in which nothing is read -/

/-- Whether no letter stands before white space. -/
def NoWordBeforeBlank (t : List Char) : Prop :=
  t.IsChain fun a b => isLetter a = true → isBlank b = false

theorem noWordBeforeBlank_cons {c : Char} (hc : isLetter c = false) {t : List Char}
    (h : NoWordBeforeBlank t) : NoWordBeforeBlank (c :: t) := by
  refine List.isChain_cons.2 ⟨fun _ _ hl => ?_, h⟩
  rw [hc] at hl
  cases hl

theorem noWordBeforeBlank_hidden (c : Char) {t : List Cell} (h : NoWordBeforeBlank (faces t)) :
    NoWordBeforeBlank (faces (hidden c ++ t)) := by
  rw [hidden, List.cons_append, faces_cons]
  refine noWordBeforeBlank_cons (c := ' ') (by decide) ?_
  generalize c.utf8Size - 1 = n
  induction n with
  | zero => exact h
  | succ n ih => exact noWordBeforeBlank_cons (c := ' ') (by decide) ih

/-- White space that shows in a text without any outside quoted runs follows a quote. -/
theorem noWordBeforeBlank_maskFrom {q : Option Char} (hq : NamesQuote q) {t : List Char}
    (h : ∀ c ∈ unquoted q t, isBlank c = false) : NoWordBeforeBlank (faces (maskFrom q t)) ∧
      (q = none → ∀ c ∈ (faces (maskFrom q t)).head?, isBlank c = false) := by
  induction t generalizing q with
  | nil =>
    have hnil : maskFrom q [] = [] := by cases q <;> rfl
    rw [hnil]
    exact ⟨List.IsChain.nil, fun _ _ hc => (Option.not_mem_none _ hc).elim⟩
  | cons c t ih =>
    cases q with
    | none =>
      rw [maskFrom_none_cons, faces_cons, face_plain]
      have hfirst : ∀ d ∈ (c :: faces (maskFrom (nextQuote none c) t)).head?, d = c :=
        fun d hd => (Option.some.inj hd).symm
      by_cases hc : isQuote c = true
      · rw [unquoted, if_pos hc] at h
        have ih := ih (hq.next c) (by rwa [nextQuote, if_pos hc])
        exact ⟨noWordBeforeBlank_cons (isLetter_of_isQuote hc) ih.1,
          fun _ d hd => hfirst d hd ▸ isBlank_quote hc⟩
      · rw [unquoted, if_neg hc, List.forall_mem_cons] at h
        have hnext : nextQuote none c = none := by rw [nextQuote, if_neg hc]
        have ih := ih (hq.next c) (by rw [hnext]; exact h.2)
        exact ⟨List.isChain_cons.2 ⟨fun d hd _ => ih.2 hnext d hd, ih.1⟩,
          fun _ d hd => hfirst d hd ▸ h.1⟩
    | some q =>
      rw [unquoted] at h
      refine ⟨?_, fun hn => (Option.some_ne_none q hn).elim⟩
      by_cases hc : c = q
      · subst hc
        rw [if_pos rfl] at h
        rw [maskFrom_self_cons, faces_cons, face_plain]
        exact noWordBeforeBlank_cons (isLetter_of_isQuote hq.isQuote) (ih namesQuote_none h).1
      · rw [if_neg hc] at h
        rw [maskFrom_hidden_cons hc]
        exact noWordBeforeBlank_hidden c (ih hq h).1

/-- Whether a text shows no parenthesis, no pipe and no letter before white space, so that neither a
call nor `GROUP BY` nor a command stands in it. -/
structure Tame (t : List Cell) : Prop where
  signs : ∀ x ∈ t, x.face ≠ '(' ∧ x.face ≠ '|'
  words : NoWordBeforeBlank (faces t)

theorem tame_nil : Tame [] := ⟨fun _ h => (List.not_mem_nil h).elim, List.IsChain.nil⟩

theorem Tame.of_append {s t : List Cell} (h : Tame (s ++ t)) : Tame t where
  signs x hx := h.signs x (List.mem_append_right s hx)
  words := by
    have := h.words
    rw [faces_append] at this
    exact (List.isChain_append.1 this).2.1

theorem Tame.notMem {t : List Cell} (h : Tame t) : '|' ∉ faces t := by
  intro hm
  obtain ⟨x, hx, hface⟩ := List.mem_map.1 hm
  exact (h.signs x hx).2 hface

theorem opensParenthesis_eq_false_of_tame {t : List Cell} (h : Tame t) :
    opensParenthesis t = false := by
  rcases ho : opensParenthesis t with _ | _
  · rfl
  obtain ⟨rest, hrest⟩ := Option.isSome_iff_exists.1 ho
  obtain ⟨x, hx, hskip⟩ := skipChar?_eq_some_iff.1 hrest
  have hm : x ∈ skipBlanks t := by
    rw [hskip]
    exact List.mem_cons_self
  exact absurd hx (h.signs x ((skipBlanks_suffix t).mem hm)).1

theorem call?_eq_none_of_tame {t : List Cell} (h : Tame t) : call? t = none := by
  rcases hc : call? t with _ | ⟨c, rest⟩
  · rfl
  obtain ⟨text, rfl, opening, closing, clause, rfl, -, -, ho, -⟩ := call?_eq_some_iff.1 hc
  exact absurd ho (h.signs opening (by simp)).1

theorem skipGroupBy?_eq_none_of_tame {t : List Cell} (h : Tame t) : skipGroupBy? t = none := by
  rcases hg : skipGroupBy? t with _ | rest
  · rfl
  simp only [skipGroupBy?, Option.bind_eq_bind, Option.bind_eq_some_iff] at hg
  obtain ⟨t₁, h₁, t₂, h₂, -⟩ := hg
  obtain ⟨word, hword, rfl⟩ := skipKeyword?_eq_some_iff.1 h₁
  obtain ⟨gap, ⟨hne, hblank⟩, -, rfl⟩ := skipSomeBlanks?_eq_some_iff.1 h₂
  obtain ⟨y, gap, rfl⟩ := List.exists_cons_of_ne_nil hne
  -- The last letter of the keyword stands right before the white space.
  rcases List.eq_nil_or_concat word with rfl | ⟨w, x, rfl⟩
  · cases hword
  have hletter : isLetter x.face = true := by
    rw [isLetter]
    have hlower : ∀ c ∈ "group".toList, c.isLower = true := by decide
    apply hlower
    rw [← hword]
    exact List.mem_map_of_mem (f := fun x : Cell => fold x.face) (by simp)
  have hchain := h.words
  rw [List.concat_eq_append, faces_append] at hchain
  have hlink := (List.isChain_append.1 hchain).2.2 x.face (by simp [faces]) y.face (by simp) hletter
  have hy := hblank y List.mem_cons_self
  rw [Cell.isBlank, hlink] at hy
  cases hy

theorem groupsBare_beforeList {s : List Char} (hs : '|' ∉ s) :
    groupsBare (beforeList ++ s).reverse = false := by
  have hpipe : '|' ∉ "count(*) FROM t GROUP BY".toList ++ s := List.not_mem_append (by decide) hs
  exact groupsBare_select_append hpipe

/-- The scan finds nothing in what follows the list. -/
theorem clauseFrom_tame {s : List Char} (hs : '|' ∉ s) {t : List Cell} (ht : Tame t) :
    clauseFrom (beforeList ++ s).reverse t = .ofAggregations [] := by
  induction t generalizing s with
  | nil => exact clauseFrom_nil _
  | cons x t ih =>
    have hquiet : Quiet (beforeList ++ s).reverse (x :: t) :=
      ⟨call?_eq_none_of_tame ht, skipGroupBy?_eq_none_of_tame ht,
        fun _ _ => groupsBare_beforeList hs⟩
    have hpipe : '|' ∉ s ++ [x.face] := by
      rw [List.mem_append, List.mem_singleton, not_or]
      exact ⟨hs, (ht.signs x List.mem_cons_self).2.symm⟩
    have hseen : x.face :: (beforeList ++ s).reverse = (beforeList ++ (s ++ [x.face])).reverse := by
      simp
    rw [clauseFrom_of_quiet fun _ => hquiet, hseen]
    exact ih hpipe (Tame.of_append (s := [x]) ht)

end QueryStats.Query

namespace QueryStats.Written

open Text Query

/-! ## Items -/

/-- What stands between two commas of a list: a closed text, without comments, that holds only bare
characters outside its quoted runs and spells a name. -/
structure ListItem where
  text : List Char
  balanced : Balanced text
  plain : ∀ c ∈ unquoted none text, isFieldChar c = true
  commentFree : CommentFree text
  named : fieldNameChars text ≠ []

/-- The token that a text starts with: a run between back quotes or double quotes, or the bare
characters up to the first that is none.  What is hidden between single quotes shows as blanks, so a
bare run ends there. -/
def leadingToken : List Char → List Char
  | [] => []
  | c :: t =>
    if c = backQuote || c = doubleQuote then c :: (t.takeWhile (· != c) ++ [c])
    else sources ((mask (c :: t)).takeWhile (isFieldChar ·.face))

namespace ListItem

variable (i : ListItem)

/-- Whether an item is a single token. -/
def isToken : Bool := leadingToken i.text == i.text

/-- The name that an item spells. -/
def name : String := String.ofList (fieldNameChars i.text)

/-- The name that the leading token of an item spells, unless it is empty. -/
def leadingName? : Option String :=
  match fieldNameChars (leadingToken i.text) with
  | [] => none
  | name => some (String.ofList name)

theorem ne_nil : i.text ≠ [] := fun h => i.named (by rw [h]; rfl)

theorem face_mem_mask {x : Cell} (h : x ∈ mask i.text) :
    isFieldChar x.face = true ∨ isQuote x.face = true ∨ x.face = ' ' :=
  (face_of_mem_maskFrom namesQuote_none h).imp_left (i.plain x.face)

/-- An item shows no sign that ends a bare run. -/
theorem face_ne {x : Cell} (hx : x ∈ mask i.text) {c : Char} (hf : isFieldChar c = false)
    (hq : isQuote c = false) (hb : c ≠ ' ') : x.face ≠ c := by
  rintro rfl
  rcases i.face_mem_mask hx with h | h | h
  · rw [hf] at h
    cases h
  · rw [hq] at h
    cases h
  · exact hb h

/-- An item ends with a quote or a bare character. -/
theorem exists_concat : ∃ m c, mask i.text = m ++ [.plain c] ∧
    (isQuote c = true ∨ isFieldChar c = true) := by
  obtain ⟨m, c, hm, hc⟩ := exists_concat_mask i.balanced i.ne_nil
  exact ⟨m, c, hm, hc.imp_right (i.plain c)⟩

/-- An item starts with a quote or a bare character. -/
theorem exists_cons : ∃ c t, i.text = c :: t ∧ (isQuote c = true ∨ isFieldChar c = true) := by
  obtain ⟨c, t, hc⟩ := List.exists_cons_of_ne_nil i.ne_nil
  refine ⟨c, t, hc, ?_⟩
  by_cases hq : isQuote c = true
  · exact Or.inl hq
  · refine Or.inr (i.plain c ?_)
    rw [hc, unquoted, if_neg hq]
    exact List.mem_cons_self

theorem tame_mask : Tame (mask i.text) where
  signs x hx := ⟨i.face_ne hx (by decide) (by decide) (by decide),
    i.face_ne hx (by decide) (by decide) (by decide)⟩
  words := (noWordBeforeBlank_maskFrom namesQuote_none fun c hc =>
    isBlank_of_isFieldChar (i.plain c hc)).1

/-! ## The leading token -/

/-- A cut of an item behind its leading token. -/
structure IsCut (token left : List Cell) : Prop where
  split : mask i.text = token ++ left
  sources_token : sources token = leadingToken i.text
  isName : ∀ t, Stops isFieldChar t → IsName isFieldChar token (left ++ t)

/-- A quoted run at the front is the leading token. -/
theorem isCut_of_quoted {q : Char} (hq : q = backQuote ∨ q = doubleQuote) {t : List Char}
    (ht : i.text = q :: t) : ∃ token left, i.IsCut token left := by
  have hquote : isQuote q = true := isQuote_of_eq hq
  have hm : q ∈ t := by
    by_contra hm
    have hb : quoteAfter none i.text = none := i.balanced
    rw [ht, quoteAfter_cons, nextQuote, if_pos hquote,
      quoteAfter_some_of_notMem hm] at hb
    cases hb
  obtain ⟨body, w, rfl, hbody⟩ := List.eq_append_cons_of_mem hm
  have hsplit : i.text = q :: (body ++ [q]) ++ w := by rw [ht]; simp
  have hrun : IsQuotedRun q (mask (q :: (body ++ [q]))) :=
    (quoted?_eq_some_iff.1 (quoted?_mask hquote hbody [])).1
  refine ⟨mask (q :: (body ++ [q])), mask w, ⟨?_, ?_, fun u _ => ?_⟩⟩
  · rw [hsplit, mask_append (balanced_quoted hquote hbody)]
  · have hcond : (q = backQuote || q = doubleQuote) = true := by simpa using hq
    have hne : ∀ c ∈ body, (c != q) = true := by
      intro c hc
      rw [bne_iff_ne]
      rintro rfl
      exact hbody hc
    have htake : (body ++ q :: w).takeWhile (· != q) = body := by
      rw [List.takeWhile_append_of_pos hne, List.takeWhile_cons, bne_self_eq_false,
        if_neg Bool.false_ne_true, List.append_nil]
    rw [sources_mask, ht, leadingToken, if_pos hcond, htake]
  · rcases hq with rfl | rfl
    · exact Or.inl hrun
    · exact Or.inr (Or.inl hrun)

/-- Where no quoted run of a field stands at the front, the leading token is bare. -/
theorem isCut_of_bare {c : Char} {t : List Char} (ht : i.text = c :: t)
    (hq : ¬(c = backQuote ∨ c = doubleQuote)) (hc : isFieldChar c = true) :
    ∃ token left, i.IsCut token left := by
  refine ⟨(mask i.text).takeWhile (isFieldChar ·.face),
    (mask i.text).dropWhile (isFieldChar ·.face),
    ⟨List.takeWhile_append_dropWhile.symm, ?_, fun u hu => Or.inr (Or.inr ⟨?_, ?_, ?_⟩)⟩⟩
  · have hcond : ¬(c = backQuote || c = doubleQuote) = true := by simpa using hq
    rw [ht, leadingToken, if_neg hcond]
  · rw [ht, mask, maskFrom_none_cons, List.takeWhile_cons, face_plain, if_pos hc]
    exact List.cons_ne_nil _ _
  · exact fun x hx => List.mem_takeWhile_imp (p := fun x : Cell => isFieldChar x.face) hx
  · have hstop := stops_dropWhile isFieldChar (mask i.text)
    cases hd : (mask i.text).dropWhile (isFieldChar ·.face) with
    | nil => exact hu
    | cons x v =>
      rw [hd] at hstop
      exact stops_cons (hstop x rfl) _

theorem exists_isCut : ∃ token left, i.IsCut token left := by
  obtain ⟨c, t, ht, hc⟩ := i.exists_cons
  by_cases hq : c = backQuote ∨ c = doubleQuote
  · exact i.isCut_of_quoted hq ht
  · refine i.isCut_of_bare ht hq (hc.elim (fun h => ?_) id)
    have hsingle : c = '\x27' := by
      simp only [isQuote, Bool.or_eq_true, decide_eq_true_eq] at h
      tauto
    rw [hsingle]
    decide

theorem isGap_eq_false {c : Char} (hc : isQuote c = true ∨ isFieldChar c = true) :
    (Cell.plain c).isGap = false := by
  rw [← Bool.not_eq_true, Cell.isGap, Bool.or_eq_true, decide_eq_true_eq]
  rintro (hb | rfl)
  · rcases hc with hc | hc
    · rw [Cell.isBlank, face_plain, isBlank_quote hc] at hb
      cases hb
    · rw [Cell.isBlank, face_plain, isBlank_of_isFieldChar hc] at hb
      cases hb
  · rcases hc with hc | hc <;> cases hc

namespace IsCut

variable {i} {token left : List Cell} (h : i.IsCut token left)

include h

theorem field? {t : List Cell} (ht : Stops isFieldChar t) :
    Query.field? (token ++ (left ++ t)) = some (token, left ++ t) :=
  (name?_eq_some_iff (by decide) (by decide)).2 ⟨h.isName t ht, rfl⟩

/-- What is left ends with a quote or a bare character, if anything is left. -/
theorem exists_concat (hne : left ≠ []) : ∃ l c, left = l ++ [.plain c] ∧
    (isQuote c = true ∨ isFieldChar c = true) := by
  obtain ⟨m, c, hm, hc⟩ := i.exists_concat
  rcases List.eq_nil_or_concat left with rfl | ⟨l, x, rfl⟩
  · exact absurd rfl hne
  have hsplit := h.split
  rw [List.concat_eq_append] at hsplit ⊢
  rw [hm, ← List.append_assoc] at hsplit
  obtain ⟨-, hx⟩ := List.append_inj' hsplit rfl
  exact ⟨l, c, by rw [hx], hc⟩

/-- Nothing is left of an item that is a single token. -/
theorem left_eq_nil_iff : left = [] ↔ i.isToken = true := by
  have hsources : sources token ++ sources left = i.text := by
    rw [← sources_append, ← h.split, sources_mask]
  rw [isToken, beq_iff_eq, ← h.sources_token]
  constructor
  · rintro rfl
    rw [← hsources]
    exact (List.append_nil _).symm
  · intro htext
    by_contra hne
    obtain ⟨l, c, rfl, -⟩ := h.exists_concat hne
    rw [← htext, List.append_right_eq_self, sources_append] at hsources
    exact List.cons_ne_nil _ _ (List.append_eq_nil_iff.1 hsources).2

/-- Where something is left of an item, no comma follows its leading token. -/
theorem commaFollows (hne : left ≠ []) (t : List Cell) : commaFollows (left ++ t) = false := by
  obtain ⟨l, c, hl, hc⟩ := h.exists_concat hne
  have hlast : ∃ x ∈ left, x.isGap = false :=
    ⟨.plain c, by simp [hl], isGap_eq_false hc⟩
  rw [Query.commaFollows, (takeWhile_dropWhile_append (Or.inl hlast)).1, List.any_eq_false]
  intro x hx
  have hmask : x ∈ mask i.text := by
    rw [h.split]
    exact List.mem_append_right _ ((List.takeWhile_sublist _).mem hx)
  rw [decide_eq_true_eq]
  exact i.face_ne hmask (by decide) (by decide) (by decide)

/-- The leading token is read as an item of the list. -/
theorem item? {t : List Cell} (ht : Stops isFieldChar t)
    (hp : opensParenthesis (left ++ t) = false) :
    Query.item? (mask i.text ++ t) = some (.field token, left ++ t) := by
  rw [h.split, List.append_assoc]
  exact item?_of_field? (h.field? ht) hp

/-- The leading token asks for the field that it names. -/
theorem ofPieces (gap : List Cell) :
    Clause.ofPieces [.gap gap, .field token] = .ofGrouping ⟨i.leadingName?.toList, none⟩ := by
  have hname : groupField? token = i.leadingName? := by
    rw [groupField?, h.sources_token]
    rfl
  have hfields : Clause.ofPieces [.gap gap, .field token] =
      .ofGrouping ⟨[token].filterMap groupField?, none⟩ := rfl
  rw [hfields, List.filterMap_cons, hname, List.filterMap_nil]
  cases i.leadingName? <;> rfl

end IsCut

/-- The leading token of an item that is a single token names what the item does. -/
theorem leadingName?_of_isToken (h : i.isToken = true) : i.leadingName? = some i.name := by
  obtain ⟨c, w, hw⟩ := List.exists_cons_of_ne_nil i.named
  rw [leadingName?, beq_iff_eq.1 h, name, hw]

theorem stops_gap (t : List Cell) :
    Stops (fun c => Text.isBlank c || c = ',') (mask i.text ++ t) := by
  obtain ⟨c, w, hw, hc⟩ := i.exists_cons
  rw [hw]
  exact stops_cons (x := .plain c) (isGap_eq_false hc) _

section

variable {i} {gap t : List Cell} (hg : ∀ x ∈ gap, x.isGap = true) (ht : Stops isFieldChar t)
  (htame : Tame (mask i.text ++ t))

include hg ht htame

/-- Behind an item that is a single token, the list goes on with the next one. -/
theorem ofPieces_of_isToken (hi : i.isToken = true) (hc : commaFollows t = true) :
    Clause.ofPieces (listPieces (gap ++ (mask i.text ++ t))).1 =
      (Clause.ofGrouping ⟨[i.name], none⟩).andThen (Clause.ofPieces (listPieces t).1) := by
  obtain ⟨token, left, hcut⟩ := i.exists_isCut
  obtain rfl := hcut.left_eq_nil_iff.2 hi
  have hitem := hcut.item? ht (opensParenthesis_eq_false_of_tame htame.of_append)
  have hpieces (ps : List Piece) : Clause.ofPieces (.gap gap :: .field token :: ps) =
      (Clause.ofPieces [.gap gap, .field token]).andThen (Clause.ofPieces ps) :=
    Clause.ofPieces_append [.gap gap, .field token] ps
  rw [listPieces_item hg (i.stops_gap t) hitem, List.nil_append, if_pos hc, hpieces, hcut.ofPieces,
    i.leadingName?_of_isToken hi]
  rfl

/-- The list ends behind the leading token of an item that is more than that, and behind an item
that no comma follows. -/
theorem ofPieces_of_ends (h : i.isToken = false ∨ commaFollows t = false) :
    Clause.ofPieces (listPieces (gap ++ (mask i.text ++ t))).1 =
      .ofGrouping ⟨i.leadingName?.toList, none⟩ := by
  obtain ⟨token, left, hcut⟩ := i.exists_isCut
  have hleft : Tame (left ++ t) := by
    rw [hcut.split, List.append_assoc] at htame
    exact htame.of_append
  have hcomma : commaFollows (left ++ t) = false := by
    by_cases hnil : left = []
    · rw [hnil, List.nil_append]
      refine h.resolve_left fun hi => ?_
      rw [hcut.left_eq_nil_iff.1 hnil] at hi
      cases hi
    · exact hcut.commaFollows hnil t
  have hitem := hcut.item? ht (opensParenthesis_eq_false_of_tame hleft)
  rw [listPieces_item hg (i.stops_gap t) hitem, if_neg (by rw [hcomma]; decide), hcut.ofPieces]

end

end ListItem

/-! ## Lists of items -/

/-- The list that some items are written as. -/
def itemList (is : List ListItem) : List Char := commaList (is.map ListItem.text)

/-- The fields that are read from a list of items: those of the items before the first that is no
single token, and that of its leading token. -/
def readFields (is : List ListItem) : List String :=
  (is.takeWhile ListItem.isToken).map ListItem.name ++
    ((is.dropWhile ListItem.isToken).head?.bind ListItem.leadingName?).toList

theorem readFields_of_isToken {i : ListItem} (h : i.isToken = true) (is : List ListItem) :
    readFields (i :: is) = i.name :: readFields is := by
  rw [readFields, readFields, List.takeWhile_cons, List.dropWhile_cons, if_pos h, if_pos h]
  rfl

theorem readFields_of_not_isToken {i : ListItem} (h : i.isToken = false) (is : List ListItem) :
    readFields (i :: is) = i.leadingName?.toList := by
  rw [readFields, List.takeWhile_cons, List.dropWhile_cons, h]
  rfl

theorem mask_itemList_cons_cons (i j : ListItem) (is : List ListItem) :
    mask (itemList (i :: j :: is)) =
      mask i.text ++ (shown ", ".toList ++ mask (itemList (j :: is))) :=
  mask_commaList_cons_cons i.balanced _ _

theorem mask_itemList_singleton (i : ListItem) : mask (itemList [i]) = mask i.text ++ [] := by
  rw [List.append_nil]
  simp [itemList, commaList]

theorem tame_itemList (is : List ListItem) : Tame (mask (itemList is)) := by
  cases is with
  | nil => exact tame_nil
  | cons i is =>
    induction is generalizing i with
    | nil =>
      rw [mask_itemList_singleton, List.append_nil]
      exact i.tame_mask
    | cons j is ih =>
      have hj := ih j
      rw [mask_itemList_cons_cons]
      refine ⟨fun x hx => ?_, ?_⟩
      · rcases List.mem_append.1 hx with hx | hx
        · exact i.tame_mask.signs x hx
        · rcases List.mem_append.1 hx with hx | hx
          · exact face_of_mem_shown (p := fun c => c ≠ '(' ∧ c ≠ '|') (by decide) x hx
          · exact hj.signs x hx
      · rw [faces_append]
        refine List.isChain_append.2 ⟨i.tame_mask.words, ?_, fun a _ b hb _ => ?_⟩
        · exact noWordBeforeBlank_cons (c := ',') (by decide)
            (noWordBeforeBlank_cons (c := ' ') (by decide) hj.words)
        · have hcomma : b = ',' := (Option.some.inj hb).symm
          rw [hcomma]
          decide

theorem commentFree_itemList (is : List ListItem) : CommentFree (itemList is) := by
  refine commentFree_commaList fun t ht => ?_
  obtain ⟨i, -, rfl⟩ := List.mem_map.1 ht
  exact ⟨i.balanced, i.commentFree⟩

/-- A list of items is read up to the first that is no single token. -/
theorem ofPieces_listPieces (is : List ListItem) {gap : List Cell}
    (hg : ∀ x ∈ gap, x.isGap = true) :
    Clause.ofPieces (listPieces (gap ++ mask (itemList is))).1 =
      .ofGrouping ⟨readFields is, none⟩ := by
  cases is with
  | nil =>
    have hdrop : (gap ++ mask (itemList [])).dropWhile Cell.isGap = [] :=
      List.dropWhile_eq_nil_iff.2 fun x hx => hg x (by simpa [itemList, commaList] using hx)
    rw [listPieces_of_none (by rw [hdrop]; rfl)]
    rfl
  | cons i is =>
    induction is generalizing i gap with
    | nil =>
      have htame := tame_itemList [i]
      have hread : readFields [i] = i.leadingName?.toList := by
        rcases hi : i.isToken with _ | _
        · exact readFields_of_not_isToken hi []
        · rw [readFields_of_isToken hi, i.leadingName?_of_isToken hi]
          rfl
      rw [mask_itemList_singleton] at htame ⊢
      rw [ListItem.ofPieces_of_ends hg (stops_nil _) htame (Or.inr rfl), hread]
    | cons j is ih =>
      have htame := tame_itemList (i :: j :: is)
      have hstops := (endsItem_separator (mask (itemList (j :: is)))).field
      have hgap : ∀ x ∈ shown ", ".toList, x.isGap = true := by decide
      rw [mask_itemList_cons_cons] at htame ⊢
      rcases hi : i.isToken with _ | _
      · rw [ListItem.ofPieces_of_ends hg hstops htame (Or.inl hi), readFields_of_not_isToken hi]
      · rw [ListItem.ofPieces_of_isToken hg hstops htame hi rfl, ih hgap j,
          readFields_of_isToken hi]
        rfl

/-- A query that groups by a list of items groups by those before the first that is no single token,
and by the leading token of that one. -/
theorem ofQuery_items (is : List ListItem) : Clause.ofQuery (groupedBy (itemList is)) =
    { aggregations := [countAll.aggregation]
      grouping := { fields := readFields is, bucket := none } } := by
  rcases hl : listPieces (.plain ' ' :: mask (itemList is)) with ⟨ps, rest⟩
  have hpieces : Clause.ofPieces ps = .ofGrouping ⟨readFields is, none⟩ := by
    have hgap : ∀ x ∈ [Cell.plain ' '], x.isGap = true := by decide
    have := ofPieces_listPieces is hgap
    rwa [List.singleton_append, hl] at this
  have htexts : texts ps ++ rest = .plain ' ' :: mask (itemList is) := by
    have := texts_listPieces (.plain ' ' :: mask (itemList is))
    rwa [hl] at this
  have htame : Tame (texts ps ++ rest) := by
    rw [htexts]
    have := tame_itemList is
    exact ⟨List.forall_mem_cons.2 ⟨by decide, this.signs⟩,
      noWordBeforeBlank_cons (c := ' ') (by decide) this.words⟩
  have hpipe : '|' ∉ faces (texts ps) := fun hm => by
    apply htame.notMem
    rw [faces_append]
    exact List.mem_append_left _ hm
  rw [ofQuery_groupedBy (commentFree_itemList is) hl, hpieces,
    clauseFrom_tame hpipe htame.of_append, Clause.andThen_ofAggregations_nil]
  rfl

/-- A name qualified by `t` with its last part in back quotes. -/
def qualified : ListItem where
  text := ['t', '.', backQuote, 'c', backQuote]
  balanced := by decide
  plain := by decide
  commentFree := by decide
  named := by decide

/-- The plain name `d`. -/
def columnD : ListItem := ⟨['d'], by decide, by decide, by decide, by decide⟩

example : readFields [columnD, qualified, columnD] = ["d", "t."] := by decide

/-- A qualified name with a quoted part is cut before the quote, and the item behind it is lost. -/
theorem fields_items_ne_qualified :
    ¬∀ is : List ListItem, is ≠ [] →
      (Clause.ofQuery (groupedBy (itemList is))).grouping.fields = is.map ListItem.name := by
  intro h
  have he := h [qualified, columnD] (by simp)
  have hne : (Clause.ofQuery (groupedBy (itemList [qualified, columnD]))).grouping.fields ≠
      [qualified, columnD].map ListItem.name := by decide +kernel
  exact hne he

end QueryStats.Written
