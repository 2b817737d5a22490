import QueryStats.Proofs.RoundTrip

/-!
# The two ways to write a query

A query piped into a statistics command has the clause of the SQL query written from the same parts.
The bare `BY` groups there because the command that the text before it ends in is known: no pipe
shows in the list of aggregations.  It does not group after an ordering word, so the last alias,
when it is bare, must not end in one (`Call.endsInOrderingWord`).
-/

namespace QueryStats.Written

open Text Query

/-! ## No pipe shows -/

theorem Name.noPipe_text (n : Alias) : '|' ∉ faces (mask n.text) := by
  rcases n.text_cases with ⟨-, ht, -, hn, -⟩ | ⟨q, hq, hnot, ht⟩
  · rw [ht, mask_of_unquoted fun c hc => (hn c hc).2, faces_shown]
    exact fun hm => absurd (hn _ hm).1 (by decide)
  · have hne : '|' ≠ q := by
      rintro rfl
      exact absurd (isQuote_of_eq hq) (by decide)
    have hb : '|' ∉ faces (maskFrom (some q) n.name) := by
      intro hm
      obtain ⟨x, hx, hf⟩ := List.mem_map.1 hm
      rw [face_of_mem_maskFrom_some hnot hx] at hf
      exact absurd hf (by decide)
    rw [ht, mask_quoted (isQuote_of_eq hq) hnot, faces_cons, faces_append]
    simp [hne, hb]

theorem noPipe_asClause (label : Option Alias) : '|' ∉ faces (mask (asClause label)) := by
  cases label with
  | none => exact List.not_mem_nil
  | some n =>
    rw [mask_asClause_some, faces_append, faces_shown, List.mem_append, not_or]
    exact ⟨by decide, n.noPipe_text⟩

theorem Call.noPipe_text (c : Call) (h : '|' ∉ faces (mask c.argument)) :
    '|' ∉ faces (mask c.text) := by
  have hn : '|' ∉ c.name := fun hm => absurd (c.isName _ hm) (by decide)
  rw [c.mask_text]
  simp only [faces_append, faces_cons, faces_shown, face_plain, List.mem_append, List.mem_cons,
    not_or]
  exact ⟨hn, by decide, h, by decide, noPipe_asClause c.label⟩

theorem noPipe_callList {calls : List Call} (h : ∀ c ∈ calls, '|' ∉ faces (mask c.argument)) :
    '|' ∉ faces (mask (callList calls)) := by
  refine (commaList_induction (P := fun t => Balanced t ∧ '|' ∉ faces (mask t))
    ⟨balanced_nil, List.not_mem_nil⟩ (fun t u ht hu => ⟨?_, ?_⟩) fun t ht => ?_).2
  · exact ht.1.append ((show Balanced ", ".toList by decide).append hu.1)
  · have hm : mask (t ++ (", ".toList ++ u)) = mask t ++ (shown ", ".toList ++ mask u) := by
      rw [mask_append ht.1, mask_unquoted_append (by decide)]
    rw [hm, faces_append, faces_append, faces_shown, List.mem_append, List.mem_append, not_or,
      not_or]
    exact ⟨ht.2, by decide, hu.2⟩
  · obtain ⟨c, hc, rfl⟩ := List.mem_map.1 ht
    exact ⟨c.balanced_text, c.noPipe_text (h c hc)⟩

/-! ## The word before `BY` -/

/-- Whether a call ends in a bare alias whose last word is an ordering word. -/
def Call.endsInOrderingWord (c : Call) : Bool :=
  match c.label with
  | some n => n.spelling = .bare && follows orderingWords n.name.reverse
  | none => false

theorem Call.follows_orderingWords {c : Call} (h : c.endsInOrderingWord = false)
    (seen : List Char) :
    follows orderingWords (' ' :: ((faces (mask c.text)).reverse ++ seen)) = false := by
  obtain ⟨t, ht⟩ : ∃ t, (faces (mask c.text)).reverse =
      (faces (mask (asClause c.label))).reverse ++ ')' :: t := by
    rw [c.mask_text]
    exact ⟨(faces (mask c.argument)).reverse ++ '(' :: c.name.reverse, by simp⟩
  rw [ht]
  cases hc : c.label with
  | none => rfl
  | some n =>
    have ha : (faces (mask (asClause (some n)))).reverse =
        (faces (mask n.text)).reverse ++ " SA ".toList := by
      rw [mask_asClause_some, faces_append, faces_shown, List.reverse_append]
      rfl
    rw [ha]
    rcases n.text_cases with ⟨hs, htext, hne, hn, -⟩ | ⟨q, rfl | rfl, hnot, htext⟩
    · -- The word ends where the alias does, for a blank stands before the alias.
      have hblank : ∃ c ∈ n.name.reverse, isBlank c = false := by
        obtain ⟨c, u, hu⟩ := List.exists_cons_of_ne_nil hne
        have hc : c ∈ n.name := by
          rw [hu]
          exact List.mem_cons_self
        exact ⟨c, List.mem_reverse.2 hc, isBlank_of_isAliasChar (hn c hc).1⟩
      have hw (v : List Char) : wordBefore (' ' :: (n.name.reverse ++ ' ' :: v)) =
          wordBefore n.name.reverse := wordBefore_append (by decide) (Or.inl hblank) v
      have hf : follows orderingWords n.name.reverse = false := by
        rw [endsInOrderingWord, hc] at h
        simpa [hs] using h
      rw [htext, mask_of_unquoted fun c hc => (hn c hc).2, faces_shown, List.append_assoc,
        List.append_assoc, ← hf]
      exact congrArg (fun w => orderingWords.any fun word => eqIgnoreCase w word.toList) (hw _)
    · rw [htext, mask_quoted (by decide) hnot]
      simp only [faces_cons, faces_append, List.reverse_append, List.reverse_cons]
      rfl
    · rw [htext, mask_quoted (by decide) hnot]
      simp only [faces_cons, faces_append, List.reverse_append, List.reverse_cons]
      rfl

/-- A list of calls ends as its last call does. -/
theorem faces_callList {calls : List Call} {c : Call} (h : calls.getLast? = some c) :
    ∃ t, faces (mask (callList calls)) = t ++ faces (mask c.text) := by
  induction calls with
  | nil => cases h
  | cons d ds ih =>
    cases ds with
    | nil =>
      obtain rfl := Option.some.inj h
      exact ⟨[], by simp [callList, commaList]⟩
    | cons e es =>
      rw [List.getLast?_cons_cons] at h
      obtain ⟨t, ht⟩ := ih h
      have hl : mask (callList (d :: e :: es)) =
          mask d.text ++ (shown ", ".toList ++ mask (callList (e :: es))) :=
        mask_commaList_cons_cons d.balanced_text _ _
      exact ⟨faces (mask d.text) ++ (", ".toList ++ t), by
        rw [hl, faces_append, faces_append, faces_shown, ht]; simp only [List.append_assoc]⟩

/-! ## The piped query -/

theorem commentFree_piped {command : String} (hc : ∀ c ∈ command.toList, isInert c = true)
    (calls : List Call) (g : Grouping) : CommentFree (piped command calls g) := by
  have hg := CommentFree.inert_append (s := " by ".toList) (by decide) g.commentFree_text
  have hl := (callList_commentFree calls).append (callList_balanced calls) hg (by simp)
  have hl' := CommentFree.inert_append (s := [' ']) (by decide) hl
  exact CommentFree.inert_append (by decide) (CommentFree.inert_append hc hl')

theorem mask_piped {command : String} (hc : ∀ c ∈ command.toList, isQuote c = false)
    (calls : List Call) (g : Grouping) :
    mask (piped command calls g) = shown "source=t | ".toList ++ (shown command.toList ++
      .plain ' ' :: (mask (callList calls) ++ (shown " by ".toList ++ mask g.text))) := by
  have hb : mask (" by ".toList ++ g.text) = shown " by ".toList ++ mask g.text :=
    mask_unquoted_append (by decide) _
  have hl := mask_append (callList_balanced calls) (" by ".toList ++ g.text)
  rw [hb] at hl
  have hl' := (mask_cons (c := ' ') (by decide) _).trans (congrArg _ hl)
  exact (mask_unquoted_append (by decide) _).trans
    (congrArg _ ((mask_unquoted_append hc _).trans (congrArg _ hl')))

/-- A bare `BY` groups after a list of aggregations that does not end in an ordering word. -/
theorem groupsBare_callList {calls : List Call} (hne : calls ≠ [])
    (hp : ∀ c ∈ calls, '|' ∉ faces (mask c.argument))
    (hl : ∀ c ∈ calls.getLast?, c.endsInOrderingWord = false) {command : String}
    (hc : command ∈ statsCommands) (seen : List Char) :
    groupsBare (' ' :: ((faces (mask (callList calls))).reverse ++
      ((' ' :: (command.toList ++ [' '])).reverse ++ '|' :: seen))) = true := by
  have hf : follows orderingWords (' ' :: ((faces (mask (callList calls))).reverse ++
      ((' ' :: (command.toList ++ [' '])).reverse ++ '|' :: seen))) = false := by
    have hlast := List.getLast?_eq_some_getLast hne
    obtain ⟨t, ht⟩ := faces_callList hlast
    rw [ht, List.reverse_append, List.append_assoc]
    exact Call.follows_orderingWords (hl _ hlast) _
  have hb : commandBefore (' ' :: ((faces (mask (callList calls))).reverse ++
      ((' ' :: (command.toList ++ [' '])).reverse ++ '|' :: seen))) =
      trimStart (' ' :: (command.toList ++ ' ' :: (faces (mask (callList calls)) ++ [' ']))) := by
    have hcommand : ∀ command ∈ statsCommands, '|' ∉ command.toList := by decide
    have hn : '|' ∉ ' ' :: (command.toList ++ ' ' :: (faces (mask (callList calls)) ++ [' '])) := by
      simp only [List.mem_cons, List.mem_append, not_or]
      exact ⟨by decide, hcommand command hc, by decide, noPipe_callList hp, by decide, by simp⟩
    rw [← commandBefore_reverse hn, ← commandBefore_append (List.reverse _) seen]
    simp
  rw [groupsBare, hf, hb, Bool.not_false, Bool.true_and, List.any_eq_true]
  refine ⟨command, hc, ?_⟩
  simp only [statsCommands, List.mem_cons, List.not_mem_nil, or_false] at hc
  rcases hc with rfl | rfl <;> rfl

/-- The clause of a piped query is what it was written from. -/
theorem ofChars_piped {calls : List Call} {g : Grouping} (hne : calls ≠ []) (hg : g.items ≠ [])
    (hp : ∀ c ∈ calls, '|' ∉ faces (mask c.argument))
    (hl : ∀ c ∈ calls.getLast?, c.endsInOrderingWord = false) {command : String}
    (hc : command ∈ statsCommands) :
    Clause.ofChars (piped command calls g) = ⟨calls.map Call.aggregation, g.grouping⟩ := by
  have hquote : ∀ command ∈ statsCommands, ∀ c ∈ command.toList, isQuote c = false := by decide
  have hsource (t : List Cell) : clauseFrom [] (shown "source=t | ".toList ++ t) =
      clauseFrom (' ' :: '|' :: " t=ecruos".toList) t :=
    clauseFrom_shown ⟨rfl, rfl, rfl, rfl, rfl, rfl, rfl, rfl, rfl, rfl, rfl, trivial⟩
  have hcommand (t : List Cell) : clauseFrom (' ' :: '|' :: " t=ecruos".toList)
      (shown command.toList ++ .plain ' ' :: t) =
      clauseFrom ((' ' :: (command.toList ++ [' '])).reverse ++ '|' :: " t=ecruos".toList) t ∧
      Admits ((' ' :: (command.toList ++ [' '])).reverse ++ '|' :: " t=ecruos".toList) := by
    simp only [statsCommands, List.mem_cons, List.not_mem_nil, or_false] at hc
    rcases hc with rfl | rfl
    · have hu : Unread t (' ' :: '|' :: " t=ecruos".toList) "stats ".toList :=
        ⟨rfl, rfl, rfl, rfl, rfl, rfl, trivial⟩
      exact ⟨clauseFrom_shown hu, rfl, rfl⟩
    · have hu : Unread t (' ' :: '|' :: " t=ecruos".toList) "eventstats ".toList :=
        ⟨rfl, rfl, rfl, rfl, rfl, rfl, rfl, rfl, rfl, rfl, rfl, trivial⟩
      exact ⟨clauseFrom_shown hu, rfl, rfl⟩
  have ha (t : List Cell) : EndsAlias (shown " by ".toList ++ t) :=
    ⟨rfl, stops_cons (x := .plain ' ') rfl _⟩
  have hby (seen : List Char) : clauseFrom seen (shown " by ".toList ++ mask g.text) =
      clauseFrom (' ' :: seen) (shown "by ".toList ++ mask g.text) :=
    clauseFrom_of_none (read?_eq_none _ rfl rfl rfl)
  have hk := groupsBare_callList hne hp hl hc " t=ecruos".toList
  have hlist {seen : List Char} (hs : startsWord seen = true) (hk : groupsBare seen = true) :
      clauseFrom seen (shown "by ".toList ++ mask g.text) = .ofGrouping g.grouping := by
    have hkeyword : groupingKeyword? seen (shown "by".toList ++ .plain ' ' :: (mask g.text ++ [])) =
        some (true, .plain ' ' :: (mask g.text ++ [])) := by
      rw [groupingKeyword?, hk]
      rfl
    have h := g.clauseFrom_text hg hs rfl hkeyword endsItem_nil rfl
    rwa [clauseFrom_nil, Clause.andThen_ofAggregations_nil, List.append_nil] at h
  show clauseFrom [] (mask (piped command calls g)) = _
  rw [mask_piped (hquote command hc), hsource, (hcommand _).1,
    clauseFrom_callList calls (hcommand []).2 (ha _) rfl, hby,
    hlist rfl hk]
  simp [Clause.andThen, Clause.ofAggregations, Clause.ofGrouping]

/-- The two ways to write a query agree, whatever the spelling of each name, unless the list of
aggregations ends in an ordering word. -/
theorem ofQuery_select_eq_piped {calls : List Call} {g : Grouping} (hne : calls ≠ [])
    (hg : g.items ≠ []) (hp : ∀ c ∈ calls, '|' ∉ faces (mask c.argument))
    (hl : ∀ c ∈ calls.getLast?, c.endsInOrderingWord = false) :
    Clause.ofQuery (String.ofList (select calls g)) =
        Clause.ofQuery (String.ofList (piped "stats" calls g)) ∧
      Clause.ofQuery (String.ofList (piped "stats" calls g)) =
        Clause.ofQuery (String.ofList (piped "eventstats" calls g)) := by
  have hselect : Clause.ofQuery (String.ofList (select calls g)) =
      ⟨calls.map Call.aggregation, g.grouping⟩ := by
    rw [Clause.ofQuery, String.toList_ofList, stripFrom_of_commentFree (commentFree_select calls g),
      ofChars_select]
  have hpiped : ∀ command ∈ statsCommands, Clause.ofQuery (String.ofList (piped command calls g)) =
      ⟨calls.map Call.aggregation, g.grouping⟩ := by
    intro command hc
    have hi : ∀ command ∈ statsCommands, ∀ c ∈ command.toList, isInert c = true := by decide
    rw [Clause.ofQuery, String.toList_ofList,
      stripFrom_of_commentFree (commentFree_piped (hi command hc) calls g),
      ofChars_piped hne hg hp hl hc]
  rw [hselect, hpiped "stats" (by decide), hpiped "eventstats" (by decide)]
  exact ⟨rfl, rfl⟩

/-- The call `count(x)` with a name for its result. -/
def countAs (n : Alias) : Call where
  name := "count".toList
  argument := "x".toList
  label := some n
  start := by decide
  isName := by decide
  trimmed := by decide
  balanced := by decide
  noParenthesis := by decide
  commentFree := by decide

/-- Grouping by the field `host`. -/
def byHost : Grouping where
  bucket := none
  fields := [⟨⟨"host".toList, .bare, by decide, by decide, by decide, by decide⟩, by decide⟩]
  named := by decide

/-- A bare alias that is a grouping keyword. -/
def bareBy : Alias := ⟨"by".toList, .bare, by decide, by decide, by decide, by decide⟩

/-- A bare alias that is an ordering word. -/
def bareOrder : Alias := ⟨"order".toList, .bare, by decide, by decide, by decide, by decide⟩

example : String.ofList (piped "stats" [countAs bareBy] byHost) =
    "source=t | stats count(x) AS by by host" := by decide

/-- A grouping keyword as the last alias is no trouble. -/
theorem ofQuery_select_eq_piped_bareBy :
    Clause.ofQuery (String.ofList (select [countAs bareBy] byHost)) =
        Clause.ofQuery (String.ofList (piped "stats" [countAs bareBy] byHost)) ∧
      Clause.ofQuery (String.ofList (piped "stats" [countAs bareBy] byHost)) =
        Clause.ofQuery (String.ofList (piped "eventstats" [countAs bareBy] byHost)) :=
  ofQuery_select_eq_piped (by decide) (by decide) (by decide) (by decide)

/-- An ordering word as the last alias keeps the bare `BY` from grouping. -/
theorem ofQuery_select_ne_piped_bareOrder :
    ¬∀ (calls : List Call) (g : Grouping), calls ≠ [] → g.items ≠ [] →
      (∀ c ∈ calls, '|' ∉ faces (mask c.argument)) →
      Clause.ofQuery (String.ofList (select calls g)) =
          Clause.ofQuery (String.ofList (piped "stats" calls g)) ∧
        Clause.ofQuery (String.ofList (piped "stats" calls g)) =
          Clause.ofQuery (String.ofList (piped "eventstats" calls g)) := by
  intro h
  have he := (h [countAs bareOrder] byHost (by decide) (by decide) (by decide)).1
  have hne : Clause.ofQuery (String.ofList (select [countAs bareOrder] byHost)) ≠
      Clause.ofQuery (String.ofList (piped "stats" [countAs bareOrder] byHost)) := by decide +kernel
  exact hne he

end QueryStats.Written
