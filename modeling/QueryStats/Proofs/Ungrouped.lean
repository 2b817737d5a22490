import QueryStats.Proofs.Passing

/-!
# Queries without a grouping keyword

A list of what to group by opens in two ways: behind the words `GROUP BY`, and behind a bare `BY`
in a command that starts with `STATS` or `EVENTSTATS`.  Where neither stands in the text that is
scanned, the clause groups by nothing (`ofQuery_ungrouped`).  The scan judges a bare `BY` by the
part of its command that comes before it; a keyword that starts this part starts the whole command,
since no word goes on into `BY` (`startsWithKeyword_append`).
-/

namespace QueryStats.Query

open Text

/-- Whether the words `GROUP BY` stand in a text: in any case, white space between them, and neither
part of a longer word. -/
def HasGroupBy (t : List Char) : Prop :=
  ∃ before group gap word after, t = before ++ (group ++ (gap ++ (word ++ after))) ∧
    (∀ c ∈ before.getLast?, isWord c = false) ∧ eqIgnoreCase group "GROUP".toList = true ∧
    (gap ≠ [] ∧ ∀ c ∈ gap, isBlank c = true) ∧ eqIgnoreCase word "BY".toList = true ∧
    ∀ c ∈ after.head?, isWord c = false

/-- Whether a command of a piped query starts, after white space, with the keyword `STATS` or
`EVENTSTATS`. -/
def IsStatsCommand (command : List Char) : Prop :=
  ∃ name ∈ statsCommands, startsWithKeywordBy id name.toList (trimStart command) = true

instance (command : List Char) : Decidable (IsStatsCommand command) :=
  inferInstanceAs (Decidable (∃ name ∈ statsCommands, _))

/-! ## Keywords in any case -/

/-- The long s and the Kelvin sign apart, folding is bringing to lower case. -/
theorem toLower_of_fold {c k : Char} (h : fold c = k) (hs : k ≠ 's') (hk : k ≠ 'k') :
    c.toLower = k := by
  unfold fold at h
  split at h
  · exact absurd h.symm hs
  split at h
  · exact absurd h.symm hk
  · exact h

theorem eqIgnoreCase_of_fold {word : List Cell} {keyword : List Char}
    (h : word.map (fold ·.face) = keyword.map Char.toLower)
    (hk : ∀ k ∈ keyword.map Char.toLower, k ≠ 's' ∧ k ≠ 'k') :
    eqIgnoreCase (faces word) keyword = true := by
  rw [eqIgnoreCase, beq_iff_eq, ← h, faces, List.map_map]
  refine List.map_congr_left fun x hx => ?_
  have hx' := hk (fold x.face) (h ▸ List.mem_map_of_mem (f := fun x : Cell => fold x.face) hx)
  exact toLower_of_fold rfl hx'.1 hx'.2

theorem startsWord_iff {seen : List Char} :
    startsWord seen = true ↔ ∀ c ∈ seen.head?, isWord c = false := by
  cases seen <;> simp [startsWord]

theorem endsWord_iff {t : List Cell} :
    endsWord t = true ↔ ∀ c ∈ (faces t).head?, isWord c = false := by
  cases t <;> simp [endsWord]

/-- Where `GROUP BY` is read, it stands in the text. -/
theorem hasGroupBy_of_skipGroupBy? {seen : List Char} {t rest : List Cell}
    (hs : startsWord seen = true) (h : skipGroupBy? t = some rest) :
    HasGroupBy (seen.reverse ++ faces t) := by
  simp only [skipGroupBy?, Option.bind_eq_bind, Option.bind_eq_some_iff] at h
  obtain ⟨t₁, h₁, t₂, h₂, h₃⟩ := h
  obtain ⟨group, hgroup, rfl⟩ := skipKeyword?_eq_some_iff.1 h₁
  obtain ⟨gap, ⟨hne, hgap⟩, -, rfl⟩ := skipSomeBlanks?_eq_some_iff.1 h₂
  obtain ⟨hby, hend⟩ := skipBy?_eq_some_iff.1 h₃
  obtain ⟨word, hword, rfl⟩ := skipKeyword?_eq_some_iff.1 hby
  refine ⟨seen.reverse, faces group, faces gap, faces word, faces rest, ?_, ?_, ?_, ⟨?_, ?_⟩, ?_,
    ?_⟩
  · simp only [faces_append]
  · rw [List.getLast?_reverse]
    exact startsWord_iff.1 hs
  · exact eqIgnoreCase_of_fold hgroup (by decide)
  · simpa [faces] using hne
  · intro c hc
    obtain ⟨x, hx, rfl⟩ := List.mem_map.1 hc
    exact hgap x hx
  · exact eqIgnoreCase_of_fold hword (by decide)
  · exact endsWord_iff.1 hend

/-! ## Commands -/

/-- A text starts with a keyword when some characters spell it and no name goes on behind them. -/
theorem startsWithKeyword_iff {keyword t : List Char} :
    startsWithKeywordBy id keyword t = true ↔ ∃ word rest, t = word ++ rest ∧
      word.map Char.toLower = keyword.map Char.toLower ∧
      ∀ c ∈ rest.head?, isNamePart c = false := by
  constructor
  · intro h
    rw [startsWithKeywordBy] at h
    rcases hd : dropKeyword? (fun c => (id c).toLower) (keyword.map Char.toLower) t with _ | rest
    · rw [hd] at h
      cases h
    · obtain ⟨word, ht, hw⟩ := dropKeyword?_append hd
      refine ⟨word, rest, ht, hw, fun c hc => ?_⟩
      obtain ⟨u, rfl⟩ := List.head?_eq_some_iff.1 hc
      rw [hd] at h
      simpa using h
  · rintro ⟨word, rest, rfl, hw, hr⟩
    have hd : dropKeyword? Char.toLower (word.map Char.toLower) (word ++ rest) = some rest :=
      dropKeyword?_of_map rest
    rw [startsWithKeywordBy, ← hw]
    simp only [id_eq, hd]
    cases rest with
    | nil => rfl
    | cons c rest => simp [hr c rfl]

/-- A keyword that starts a text starts every longer one in which no word goes on over the end of
the first. -/
theorem startsWithKeyword_append {keyword t : List Char} (hne : keyword ≠ [])
    (hk : ∀ c ∈ keyword.map Char.toLower, c.isLower = true)
    (ht : ∀ c ∈ t.getLast?, isWord c = false) (h : startsWithKeywordBy id keyword t = true)
    (u : List Char) : startsWithKeywordBy id keyword (t ++ u) = true := by
  obtain ⟨word, rest, rfl, hw, hr⟩ := startsWithKeyword_iff.1 h
  refine startsWithKeyword_iff.2 ⟨word, rest ++ u, List.append_assoc _ _ _, hw, ?_⟩
  cases rest with
  | cons c rest => exact hr
  | nil =>
    -- The text is the keyword alone, so it ends in a letter.
    rcases List.eq_nil_or_concat word with rfl | ⟨init, d, rfl⟩
    · exact absurd (List.map_eq_nil_iff.1 hw.symm) hne
    · have hd : d.toLower.isLower = true := hk _ (by rw [← hw]; simp)
      have hword := ht d (by simp)
      rw [isWord_of_isLetter (of_isLower_toLower hd).1] at hword
      cases hword

/-- A text is the last of the parts between the separators of what it ends. -/
theorem mem_splitOn {a : Char} {s p t : List Char} (hp : a ∉ p)
    (hs : ∀ c ∈ s.getLast?, c = a) (ht : ∀ c ∈ t.head?, c = a) :
    p ∈ (s ++ (p ++ t)).splitOn a := by
  have hpt : p ∈ (p ++ t).splitOn a := by
    cases t with
    | nil => simp [List.splitOn_eq_singleton hp]
    | cons c t =>
      obtain rfl := ht c rfl
      rw [List.splitOn_append_cons_self_of_not_mem hp]
      exact List.mem_cons_self
  rcases List.eq_nil_or_concat s with rfl | ⟨s, c, rfl⟩
  · exact hpt
  · obtain rfl := hs c (by simp)
    rw [List.concat_eq_append, List.append_assoc, List.singleton_append,
      List.splitOn_append_cons_self]
    exact List.mem_append_right _ hpt

/-- The command around a place: the text from the last pipe before it up to the next pipe. -/
theorem mem_commands (seen t : List Char) :
    (seen.takeWhile (· != '|')).reverse ++ t.takeWhile (· != '|') ∈
      (seen.reverse ++ t).splitOn '|' := by
  have hsplit : seen.reverse ++ t = (seen.dropWhile (· != '|')).reverse ++
      ((seen.takeWhile (· != '|')).reverse ++ t.takeWhile (· != '|') ++
        t.dropWhile (· != '|')) := by
    rw [List.append_assoc, List.takeWhile_append_dropWhile, ← List.append_assoc,
      ← List.reverse_append, List.takeWhile_append_dropWhile]
  have hend (u : List Char) : ∀ c ∈ (u.dropWhile (· != '|')).head?, c = '|' := by
    intro c hc
    have := List.head?_dropWhile_not (· != '|') u
    rw [Option.mem_def] at hc
    rw [hc] at this
    simpa using this
  rw [hsplit]
  refine mem_splitOn ?_ ?_ (hend t)
  · intro hm
    rcases List.mem_append.1 hm with hm | hm
    · simpa using List.mem_takeWhile_imp (List.mem_reverse.1 hm)
    · simpa using List.mem_takeWhile_imp hm
  · rw [List.getLast?_reverse]
    exact hend seen

theorem trimStart_append {s : List Char} (h : ∃ c ∈ s, isBlank c = false) (t : List Char) :
    trimStart (s ++ t) = trimStart s ++ t := (takeWhile_dropWhile_append (Or.inl h)).2

/-- The command that a text ends in ends where the text does. -/
theorem mem_head?_of_commandBefore {seen : List Char} {c : Char}
    (h : c ∈ (commandBefore seen).getLast?) : c ∈ seen.head? := by
  have hlast : c ∈ (seen.takeWhile (· != '|')).reverse.getLast? := by
    obtain ⟨u, hu⟩ := List.dropWhile_suffix (l := (seen.takeWhile (· != '|')).reverse) isBlank
    rw [← hu]
    exact List.mem_getLast?_append_of_mem_getLast? h
  rw [List.getLast?_reverse, List.head?_takeWhile] at hlast
  exact (Option.mem_filter_iff.1 hlast).1

/-- A bare `BY` that groups stands in a command of its kind. -/
theorem exists_isStatsCommand {seen : List Char} (hs : startsWord seen = true)
    (h : groupsBare seen = true) (t : List Char) :
    ∃ command ∈ (seen.reverse ++ t).splitOn '|', IsStatsCommand command := by
  rw [groupsBare, Bool.and_eq_true, List.any_eq_true] at h
  obtain ⟨-, name, hname, hstart⟩ := h
  refine ⟨_, mem_commands seen t, name, hname, ?_⟩
  have hletters : ∀ name ∈ statsCommands, name.toList ≠ [] ∧
      ∀ c ∈ name.toList.map Char.toLower, c.isLower = true := by decide
  obtain ⟨hne, hlower⟩ := hletters name hname
  -- The part of the command before the place is not blank, so trimming does not reach beyond it.
  have hblank : ∃ c ∈ (seen.takeWhile (· != '|')).reverse, isBlank c = false := by
    by_contra hno
    push Not at hno
    have hnil : commandBefore seen = [] :=
      List.dropWhile_eq_nil_iff.2 fun c hc => Bool.not_eq_false _ ▸ hno c hc
    rw [hnil] at hstart
    obtain ⟨word, rest, hw, hword, -⟩ := startsWithKeyword_iff.1 hstart
    obtain ⟨rfl, -⟩ := List.append_eq_nil_iff.1 hw.symm
    exact hne (List.map_eq_nil_iff.1 hword.symm)
  rw [trimStart_append hblank]
  refine startsWithKeyword_append hne hlower ?_ hstart _
  intro c hc
  exact startsWord_iff.1 hs c (mem_head?_of_commandBefore hc)

/-! ## The scan -/

/-- Whether nothing in a text opens a list of what to group by. -/
structure Ungrouped (t : List Char) : Prop where
  noGroupBy : ¬HasGroupBy t
  noStats : ∀ command ∈ t.splitOn '|', ¬IsStatsCommand command

/-- No keyword opens a list in such a text. -/
theorem Ungrouped.groupingKeyword? {seen : List Char} {t rest : List Cell} {opens : Bool}
    (h : Ungrouped (seen.reverse ++ faces t)) (hs : startsWord seen = true)
    (hk : groupingKeyword? seen t = some (opens, rest)) : opens = false := by
  simp only [Query.groupingKeyword?, Option.or_eq_some_iff, Option.map_eq_some_iff,
    Prod.mk.injEq] at hk
  rcases hk with ⟨r, hg, -, -⟩ | ⟨-, r, -, rfl, -⟩
  · exact absurd (hasGroupBy_of_skipGroupBy? hs hg) h.noGroupBy
  · rw [← Bool.not_eq_true]
    intro hb
    obtain ⟨command, hm, hc⟩ := exists_isStatsCommand hs hb (faces t)
    exact h.noStats command hm hc

/-- Whether a piece adds nothing to what the results are grouped by. -/
def Piece.NoItem (p : Piece) : Prop := p.field? = none ∧ p.bucketing? = none

/-- A step of the scan in such a text reads no item of a list. -/
theorem Ungrouped.read? {seen : List Char} {t rest : List Cell} {ps : List Piece}
    (h : Ungrouped (seen.reverse ++ faces t)) (hr : read? seen t = some (ps, rest)) :
    ∀ p ∈ ps, p.NoItem := by
  simp only [Query.read?] at hr
  split at hr
  · cases hr
  next hs =>
  split at hr
  · rw [Option.some.injEq, Prod.mk.injEq] at hr
    obtain ⟨rfl, -⟩ := hr
    intro p hp
    rw [List.mem_singleton.1 hp]
    exact ⟨rfl, rfl⟩
  · rw [Option.map_eq_some_iff] at hr
    obtain ⟨⟨opens, r⟩, hk, hr⟩ := hr
    obtain rfl := h.groupingKeyword? (by simpa using hs) hk
    obtain ⟨rfl, -⟩ := Prod.mk.inj hr
    intro p hp
    rw [List.mem_singleton.1 hp]
    exact ⟨rfl, rfl⟩

/-- The scan of such a text reads no item of a list. -/
theorem Ungrouped.piecesFrom {seen : List Char} {t : List Cell}
    (h : Ungrouped (seen.reverse ++ faces t)) : ∀ p ∈ piecesFrom seen t, p.NoItem := by
  fun_induction Query.piecesFrom seen t with
  | case1 =>
    intro p hp
    cases hp
  | case2 seen x t ps rest hr ih =>
    have htext : ((faces (texts ps)).reverse ++ seen).reverse ++ faces rest =
        seen.reverse ++ faces (x :: t) := by
      rw [(read?_append hr).2, faces_append, List.reverse_append, List.reverse_reverse,
        List.append_assoc]
    intro p hp
    rcases List.mem_append.1 hp with hp | hp
    · exact h.read? hr p hp
    · exact ih (htext ▸ h) p hp
  | case3 seen x t hr ih =>
    have htext : (x.face :: seen).reverse ++ faces t = seen.reverse ++ faces (x :: t) := by
      rw [List.reverse_cons, List.append_assoc]
      rfl
    intro p hp
    rcases List.mem_cons.1 hp with rfl | hp
    · exact ⟨rfl, rfl⟩
    · exact ih (htext ▸ h) p hp

theorem grouping_ofPieces {ps : List Piece} (h : ∀ p ∈ ps, p.NoItem) :
    (Clause.ofPieces ps).grouping = ⟨[], none⟩ := by
  have hf : ps.filterMap Piece.field? = [] := List.filterMap_eq_nil_iff.2 fun p hp => (h p hp).1
  have hb : ps.filterMap Piece.bucketing? = [] :=
    List.filterMap_eq_nil_iff.2 fun p hp => (h p hp).2
  simp only [Clause.ofPieces, hf, hb]
  rfl

end QueryStats.Query

namespace QueryStats

open Query

/-- Without a grouping keyword nothing groups: if `GROUP BY` does not stand in what is scanned, and
no command there starts with `STATS` or `EVENTSTATS`, the clause has neither group fields nor a time
bucket. -/
theorem ofQuery_ungrouped {query : String}
    (hg : ¬HasGroupBy (blankQuoted (stripComments query)).toList)
    (hs : ∀ command ∈ (blankQuoted (stripComments query)).toList.splitOn '|',
      ¬IsStatsCommand command) :
    (Clause.ofQuery query).grouping.fields = [] ∧
      (Clause.ofQuery query).grouping.bucket = none := by
  rw [blankQuoted, stripComments, String.toList_ofList, String.toList_ofList] at hg hs
  have h : Ungrouped ([].reverse ++ faces (mask (stripFrom .code query.toList))) := ⟨hg, hs⟩
  have hgrouping : (Clause.ofQuery query).grouping = ⟨[], none⟩ := grouping_ofPieces h.piecesFrom
  rw [hgrouping]
  exact ⟨rfl, rfl⟩

/-- Bare `BY`s, time buckets, commas and calls group nothing, and neither do keywords in quotes and
comments. -/
theorem ofQuery_ungrouped_bareBy :
    (Clause.ofQuery
        "top by host, SPAN(ts, 1h) | SELECT max(x), 'GROUP BY a' BY y ORDER BY by, z --| stats by z"
        ).grouping.fields = [] ∧
      (Clause.ofQuery
        "top by host, SPAN(ts, 1h) | SELECT max(x), 'GROUP BY a' BY y ORDER BY by, z --| stats by z"
        ).grouping.bucket = none := by
  have hscan : (blankQuoted (stripComments
        "top by host, SPAN(ts, 1h) | SELECT max(x), 'GROUP BY a' BY y ORDER BY by, z --| stats by z"
        )).toList =
      "top by host, SPAN(ts, 1h) | SELECT max(x), '          ' BY y ORDER BY by, z  ".toList := by
    rw [blankQuoted, stripComments, String.toList_ofList, String.toList_ofList]
    decide +kernel
  have hno : ∀ c ∈
      "top by host, SPAN(ts, 1h) | SELECT max(x), '          ' BY y ORDER BY by, z  ".toList,
      c.toLower ≠ 'g' := by decide +kernel
  apply ofQuery_ungrouped
  · rw [hscan]
    rintro ⟨before, group, gap, word, after, ht, -, hgroup, -⟩
    rw [Text.eqIgnoreCase, beq_iff_eq] at hgroup
    obtain ⟨c, u, rfl, hc, -⟩ := List.map_eq_cons_iff.1 hgroup
    refine hno c ?_ hc
    rw [ht]
    simp
  · rw [hscan]
    decide +kernel

end QueryStats
