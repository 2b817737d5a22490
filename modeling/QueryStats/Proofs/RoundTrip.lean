import QueryStats.Proofs.Scanning

/-!
# Reading back what was written

A query written from aggregations and from what groups them has them as its clause, whatever the
spelling of each name.  A written text is free of comments, so stripping leaves it as it is; its
mask is the masks of its parts in a row; and the scan reads the parts one after the other.
-/

namespace QueryStats.Written

open Text Query

variable {isBare : Char → Bool}

theorem Name.commentFree_text (n : Name isBare) : CommentFree n.text := n.isToken.commentFree

theorem commentFree_asClause (label : Option Alias) : CommentFree (asClause label) := by
  cases label with
  | none => exact commentFree_nil
  | some n => exact CommentFree.inert_append (by decide) n.commentFree_text

theorem commentFree_closed (label : Option Alias) : CommentFree (')' :: asClause label) :=
  CommentFree.inert_append (s := [')']) (by decide) (commentFree_asClause label)

theorem Call.commentFree_text (c : Call) : CommentFree c.text := by
  have h : CommentFree (c.argument ++ ')' :: asClause c.label) :=
    c.commentFree.append c.balanced (commentFree_closed c.label) (by simp)
  have h' : CommentFree ('(' :: (c.argument ++ ')' :: asClause c.label)) :=
    CommentFree.inert_append (s := ['(']) (by decide) h
  exact CommentFree.inert_append
    (fun d hd => isInert_of_isAliasChar (isAliasChar_of_isNameChar (c.isName d hd))) h'

theorem Bucket.commentFree_text (b : Bucket) : CommentFree b.text := by
  have ha : ∀ c ∈ b.amount ++ b.unit, isInert c = true := by
    intro c hc
    rcases List.mem_append.1 hc with hc | hc
    · exact isInert_of_isAliasChar (b.isAmount.isAliasChar c hc)
    · exact isInert_of_isAliasChar (isAliasChar_of_isLetter (b.isUnit c hc))
  have h₁ := CommentFree.inert_append ha (commentFree_closed b.label)
  have h₂ := CommentFree.inert_append (s := ", ".toList) (by decide) h₁
  have h₃ := b.field.commentFree_text.append b.field.balanced_text h₂ (by simp)
  have h₄ := CommentFree.inert_append (s := "SPAN(".toList) (by decide) h₃
  rw [Bucket.text]
  simpa only [List.append_assoc] using h₄

theorem Item.commentFree_text (i : Item) : CommentFree i.text := by
  cases i with
  | bucket b => exact b.commentFree_text
  | field f => exact f.commentFree_text

/-! ## Lists -/

/-- What a list of texts is made up of holds of the list. -/
theorem commaList_induction {P : List Char → Prop} (hnil : P [])
    (happend : ∀ t u, P t → P u → P (t ++ (", ".toList ++ u))) {ts : List (List Char)}
    (h : ∀ t ∈ ts, P t) : P (commaList ts) := by
  induction ts with
  | nil => exact hnil
  | cons t ts ih =>
    rw [List.forall_mem_cons] at h
    cases ts with
    | nil =>
      rw [show commaList [t] = t by simp [commaList]]
      exact h.1
    | cons u ts =>
      rw [commaList_cons_cons]
      exact happend t _ h.1 (ih h.2)

theorem balanced_commaList {ts : List (List Char)} (h : ∀ t ∈ ts, Balanced t) :
    Balanced (commaList ts) :=
  commaList_induction balanced_nil
    (fun _ _ ht hu => ht.append ((show Balanced ", ".toList by decide).append hu)) h

theorem commentFree_commaList {ts : List (List Char)} (h : ∀ t ∈ ts, Balanced t ∧ CommentFree t) :
    CommentFree (commaList ts) := by
  have hp := commaList_induction (P := fun t => Balanced t ∧ CommentFree t)
    ⟨balanced_nil, commentFree_nil⟩ (fun t u ht hu => ⟨?_, ?_⟩) h
  · exact hp.2
  · exact ht.1.append ((show Balanced ", ".toList by decide).append hu.1)
  · exact ht.2.append ht.1 (CommentFree.inert_append (by decide) hu.2) (by simp)

/-! ## Scanning what was written -/

/-- Whether a call may be asked for after a text, which is given backwards. -/
structure Admits (seen : List Char) : Prop where
  startsWord : startsWord seen = true
  noCondition : follows conditionWords seen = false

theorem admits_separator (seen : List Char) : Admits (' ' :: ',' :: seen) := ⟨rfl, rfl⟩

/-- A written call is read where one may be asked for. -/
theorem Call.clauseFrom_text (c : Call) {seen : List Char} (hs : Admits seen) {t : List Cell}
    (ha : EndsAlias t) (he : endsItem t = true) :
    clauseFrom seen (mask c.text ++ t) = (Clause.ofAggregations [c.aggregation]).andThen
      (clauseFrom ((faces (mask c.text)).reverse ++ seen) t) := by
  have hr : read? seen (mask c.text ++ t) = some ([.call (mask c.text) c.call true], t) := by
    simp only [read?, hs.startsWord, c.call?_text ha, upTo_append, isRequested, he, hs.noCondition]
    rfl
  rw [clauseFrom_of_read? hr, texts_cons, texts_nil, List.append_nil, Piece.text_call,
    ← c.aggregation_call]
  rfl

/-- A written list of calls is read call by call. -/
theorem clauseFrom_callList (calls : List Call) {seen : List Char} (hs : Admits seen)
    {t : List Cell} (ha : EndsAlias t) (he : endsItem t = true) :
    clauseFrom seen (mask (callList calls) ++ t) =
      (Clause.ofAggregations (calls.map Call.aggregation)).andThen
        (clauseFrom ((faces (mask (callList calls))).reverse ++ seen) t) := by
  induction calls generalizing seen with
  | nil => exact (Clause.ofAggregations_nil_andThen _).symm
  | cons c cs ih =>
    cases cs with
    | nil =>
      rw [show callList [c] = c.text by simp [callList, commaList]]
      exact c.clauseFrom_text hs ha he
    | cons d ds =>
      have hl : mask (callList (c :: d :: ds)) =
          mask c.text ++ (shown ", ".toList ++ mask (callList (d :: ds))) :=
        mask_commaList_cons_cons c.balanced_text _ _
      have hu (u : List Cell) (seen : List Char) :
          clauseFrom seen (shown ", ".toList ++ u) = clauseFrom (' ' :: ',' :: seen) u :=
        clauseFrom_shown ⟨read?_eq_none _ rfl rfl rfl, rfl, trivial⟩
      rw [hl, List.append_assoc, List.append_assoc,
        c.clauseFrom_text hs (endsItem_separator _).toEndsAlias rfl, hu, ih (admits_separator _),
        List.map_cons, ← Clause.ofAggregations_cons_andThen]
      simp only [faces_append, faces_shown, List.reverse_append, List.append_assoc]
      rfl

theorem Grouping.filterMap_name? (g : Grouping) :
    g.items.filterMap Item.name? = g.fields.map fun f => String.ofList f.name := by
  have hb : (g.bucket.toList.map Item.bucket).filterMap Item.name? = [] := by
    cases g.bucket <;> rfl
  rw [Grouping.items, List.filterMap_append, hb, List.nil_append, List.filterMap_map,
    ← List.filterMap_eq_map]
  refine List.filterMap_congr fun f hf => ?_
  exact if_neg (g.named f hf)

theorem Grouping.filterMap_bucket? (g : Grouping) :
    g.items.filterMap Item.bucket? = (g.bucket.map Bucket.bucket).toList := by
  have hf : (g.fields.map Item.field).filterMap Item.bucket? = [] := by
    rw [List.filterMap_map, List.filterMap_eq_nil_iff]
    exact fun _ _ => rfl
  rw [Grouping.items, List.filterMap_append, hf, List.append_nil]
  cases g.bucket <;> rfl

/-- The pieces of a written list make up what it groups by. -/
theorem Grouping.ofPieces_items (g : Grouping) :
    Clause.ofPieces (itemPieces g.items) =
      .ofGrouping g.grouping := by
  have hr : ∀ is : List Item,
      (itemPieces is).filterMap Piece.requested? = [] := by
    intro is
    induction is with
    | nil => rfl
    | cons i is ih => cases i <;> exact ih
  rw [Clause.ofPieces, hr, filterMap_field?_items, ← List.getLast?_map,
    filterMap_bucketing?_items, g.filterMap_name?, g.filterMap_bucket?]
  cases h : g.bucket <;> simp [Clause.ofGrouping, Grouping.grouping, h]

/-- A written list is read after a keyword that opens it. -/
theorem Grouping.clauseFrom_text (g : Grouping) (hne : g.items ≠ []) {seen : List Char}
    {keyword t : List Cell} (hs : startsWord seen = true)
    (hc : call? (keyword ++ .plain ' ' :: (mask g.text ++ t)) = none)
    (hk : groupingKeyword? seen (keyword ++ .plain ' ' :: (mask g.text ++ t)) =
      some (true, .plain ' ' :: (mask g.text ++ t)))
    (ht : EndsItem t) (hcomma : commaFollows t = false) :
    clauseFrom seen (keyword ++ .plain ' ' :: (mask g.text ++ t)) =
      (Clause.ofGrouping g.grouping).andThen
        (clauseFrom ((faces (keyword ++ .plain ' ' :: mask g.text)).reverse ++ seen) t) := by
  obtain ⟨i, is, hi⟩ := List.exists_cons_of_ne_nil hne
  have hl : listPieces (.plain ' ' :: (mask g.text ++ t)) =
      (.gap [.plain ' '] :: i.piece :: itemPieces is, t) := by
    have hgap : ∀ x ∈ [Cell.plain ' '], x.isGap = true := by decide
    have := listPieces_items i is hgap ht hcomma
    rwa [← hi] at this
  have hr : read? seen (keyword ++ .plain ' ' :: (mask g.text ++ t)) =
      some (.keyword keyword true :: .gap [.plain ' '] :: i.piece :: itemPieces is, t) := by
    simp only [read?, hs, hc, hk, upTo_append, Option.map_some, hl]
    rfl
  have htexts : texts (.keyword keyword true :: .gap [.plain ' '] :: i.piece :: itemPieces is) =
      keyword ++ .plain ' ' :: mask g.text := by
    have := (read?_append hr).2
    rw [← List.cons_append, ← List.append_assoc] at this
    exact (List.append_cancel_right this).symm
  rw [clauseFrom_of_read? hr, htexts, ← g.ofPieces_items, hi]
  rfl

/-! ## The round trip -/

theorem callList_balanced (calls : List Call) : Balanced (callList calls) := by
  refine balanced_commaList fun t ht => ?_
  obtain ⟨c, -, rfl⟩ := List.mem_map.1 ht
  exact c.balanced_text

theorem callList_commentFree (calls : List Call) : CommentFree (callList calls) := by
  refine commentFree_commaList fun t ht => ?_
  obtain ⟨c, -, rfl⟩ := List.mem_map.1 ht
  exact ⟨c.balanced_text, c.commentFree_text⟩

theorem Grouping.commentFree_text (g : Grouping) : CommentFree g.text := by
  refine commentFree_commaList fun t ht => ?_
  obtain ⟨i, -, rfl⟩ := List.mem_map.1 ht
  exact ⟨i.balanced_text, i.commentFree_text⟩

theorem commentFree_groupBy (g : Grouping) : CommentFree (groupBy g) := by
  rw [groupBy]
  split
  · exact commentFree_nil
  · exact CommentFree.inert_append (by decide) g.commentFree_text

theorem commentFree_select (calls : List Call) (g : Grouping) : CommentFree (select calls g) := by
  have h := CommentFree.inert_append (s := " FROM t".toList) (by decide) (commentFree_groupBy g)
  exact CommentFree.inert_append (by decide)
    ((callList_commentFree calls).append (callList_balanced calls) h (by simp))

theorem balanced_select (calls : List Call) (g : Grouping) : Balanced (select calls g) := by
  have hg : Balanced (groupBy g) := by
    rw [groupBy]
    split
    · exact balanced_nil
    · refine (balanced_of_unquoted (by decide)).append (balanced_commaList fun t ht => ?_)
      obtain ⟨i, -, rfl⟩ := List.mem_map.1 ht
      exact i.balanced_text
  have hf : Balanced (" FROM t".toList ++ groupBy g) := (balanced_of_unquoted (by decide)).append hg
  exact (balanced_of_unquoted (by decide)).append ((callList_balanced calls).append hf)

theorem mask_select (calls : List Call) (g : Grouping) :
    mask (select calls g) = shown "SELECT ".toList ++
      (mask (callList calls) ++ (shown " FROM t".toList ++ mask (groupBy g))) := by
  have hf : mask (" FROM t".toList ++ groupBy g) = shown " FROM t".toList ++ mask (groupBy g) :=
    mask_unquoted_append (by decide) _
  have hc := mask_append (callList_balanced calls) (" FROM t".toList ++ groupBy g)
  rw [hf] at hc
  exact (mask_unquoted_append (by decide) _).trans (congrArg _ hc)

/-- The name of the table is no call, whatever may follow an item of a list. -/
theorem read?_table (seen : List Char) {t : List Cell} (ht : EndsItem t) :
    read? seen (.plain 't' :: t) = none := by
  have hname : run? isNameChar (.plain 't' :: t) = some ([.plain 't'], t) := by
    refine run?_append_of_stops (s := [.plain 't']) (by simp) (by decide) fun x hx => ?_
    have hx' := ht.stops x hx
    rw [← Bool.not_eq_true] at hx' ⊢
    exact fun hn => hx' (isAliasChar_of_isNameChar hn)
  have hparen : skipChar? '(' t = none := by
    cases t with
    | nil => rfl
    | cons x t =>
      rw [skipChar?, if_neg]
      intro hx
      have hp := ht.call
      have hb : skipBlanks (x :: t) = x :: t := skipBlanks_of_stops (stops_cons (by rw [hx]; rfl) t)
      rw [opensParenthesis, hb, skipChar?, if_pos hx] at hp
      cases hp
  have hc : call? (.plain 't' :: t) = none := by
    simp only [call?, hname, hparen, Option.bind_eq_bind, Option.bind_some, Option.bind_none,
      ite_self]
  exact read?_eq_none seen hc rfl rfl

/-- What groups a query is read after the name of its table. -/
theorem clauseFrom_table (g : Grouping) (seen : List Char) {t : List Cell} (ht : EndsItem t)
    (hcomma : commaFollows t = false) :
    clauseFrom seen (shown " FROM t".toList ++ (mask (groupBy g) ++ t)) =
      (Clause.ofGrouping g.grouping).andThen
        (clauseFrom ((faces (shown " FROM t".toList ++ mask (groupBy g))).reverse ++ seen) t) := by
  rw [groupBy]
  split
  · next h =>
    have hi := List.isEmpty_iff.1 h
    have hu : Unread t seen " FROM t".toList :=
      ⟨read?_eq_none _ rfl rfl rfl, rfl, rfl, rfl, rfl, rfl, read?_table _ ht, trivial⟩
    have hempty : Clause.ofGrouping g.grouping = Clause.ofAggregations [] := by
      rw [← g.ofPieces_items, hi]
      rfl
    rw [hempty, Clause.ofAggregations_nil_andThen]
    exact clauseFrom_shown hu
  · next h =>
    have hm : mask (" GROUP BY ".toList ++ g.text) =
        .plain ' ' :: (shown "GROUP BY".toList ++ .plain ' ' :: mask g.text) :=
      mask_unquoted_append (by decide) g.text
    have hsplit : shown " FROM t".toList ++ (mask (" GROUP BY ".toList ++ g.text) ++ t) =
        shown " FROM t ".toList ++
          (shown "GROUP BY".toList ++ .plain ' ' :: (mask g.text ++ t)) := by
      rw [hm]
      simp
    have hu : Unread (shown "GROUP BY".toList ++ .plain ' ' :: (mask g.text ++ t)) seen
        " FROM t ".toList :=
      ⟨read?_eq_none _ rfl rfl rfl, rfl, rfl, rfl, rfl, rfl, rfl, rfl, trivial⟩
    rw [hsplit, clauseFrom_shown hu, g.clauseFrom_text (by simpa using h) rfl rfl rfl ht hcomma, hm]
    simp

/-- The scan of a written query and what follows it. -/
theorem clauseFrom_select (calls : List Call) (g : Grouping) {t : List Cell} (ht : EndsItem t)
    (hcomma : commaFollows t = false) :
    clauseFrom [] (mask (select calls g) ++ t) =
      (⟨calls.map Call.aggregation, g.grouping⟩ : Clause).andThen
        (clauseFrom (faces (mask (select calls g))).reverse t) := by
  have hs (t : List Cell) : clauseFrom [] (shown "SELECT ".toList ++ t) =
      clauseFrom " TCELES".toList t :=
    clauseFrom_shown ⟨rfl, rfl, rfl, rfl, rfl, rfl, rfl, trivial⟩
  have ha (t : List Cell) : EndsAlias (shown " FROM t".toList ++ t) :=
    ⟨rfl, stops_cons (x := .plain ' ') rfl _⟩
  have hparts : (⟨calls.map Call.aggregation, g.grouping⟩ : Clause) =
      (Clause.ofAggregations (calls.map Call.aggregation)).andThen (.ofGrouping g.grouping) := by
    simp [Clause.andThen, Clause.ofAggregations, Clause.ofGrouping]
  rw [mask_select, List.append_assoc, List.append_assoc, List.append_assoc, hs,
    clauseFrom_callList calls ⟨rfl, rfl⟩ (ha _) rfl, clauseFrom_table g _ ht hcomma, hparts,
    Clause.andThen_assoc]
  simp

/-- A written query with a text behind it has the clause of the query and of what the scan finds in
the text. -/
theorem ofQuery_select_append (calls : List Call) (g : Grouping) {w : List Char}
    (hfree : CommentFree w) (hw : ∀ c ∈ w.head?, c ≠ '-' ∧ c ≠ '*') (he : EndsItem (mask w))
    (hcomma : commaFollows (mask w) = false) :
    Clause.ofQuery (String.ofList (select calls g ++ w)) =
      (⟨calls.map Call.aggregation, g.grouping⟩ : Clause).andThen
        (clauseFrom (faces (mask (select calls g))).reverse (mask w)) := by
  have hs := balanced_select calls g
  rw [Clause.ofQuery, String.toList_ofList,
    stripFrom_of_commentFree ((commentFree_select calls g).append hs hfree hw)]
  show clauseFrom [] (mask (select calls g ++ w)) = _
  rw [mask_append hs, clauseFrom_select calls g he hcomma]

/-- The clause of a written query is what it was written from. -/
theorem ofChars_select (calls : List Call) (g : Grouping) :
    Clause.ofChars (select calls g) = ⟨calls.map Call.aggregation, g.grouping⟩ := by
  have h := clauseFrom_select calls g endsItem_nil rfl
  rw [List.append_nil, clauseFrom_nil, Clause.andThen_ofAggregations_nil] at h
  exact h

/-- The round trip: a query written from aggregations and a grouping asks for just these. -/
theorem ofQuery_select (calls : List Call) (g : Grouping) :
    Clause.ofQuery (String.ofList (select calls g)) = ⟨calls.map Call.aggregation, g.grouping⟩ := by
  rw [Clause.ofQuery, String.toList_ofList, stripFrom_of_commentFree (commentFree_select calls g),
    ofChars_select]

end QueryStats.Written
