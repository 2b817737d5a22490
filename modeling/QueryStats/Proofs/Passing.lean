import QueryStats.Proofs.Forms

/-!
# Passing over text

Where neither a call nor a keyword that groups stands, the scan adds nothing to the clause and goes
on with the next cell (`clauseFrom_of_quiet`).  So it passes over signs, white space and quoted runs
(`clauseFrom_append_of_dull`), and over a run of bare characters before a break, unless a bare `BY`
in it groups (`clauseFrom_bare`).
-/

namespace QueryStats.Query

open Text

/-! ## Keywords in a text -/

/-- The texts before the places where a keyword stands as a word of its own.  Each is given
backwards, as is the text before the first place. -/
def wordPlaces (keyword : String) : List Char → List Cell → List (List Char)
  | _, [] => []
  | seen, x :: t =>
    if startsWord seen && (skipKeyword? keyword (x :: t)).any endsWord then
      seen :: wordPlaces keyword (x.face :: seen) t
    else wordPlaces keyword (x.face :: seen) t

theorem wordPlaces_append_subset (keyword : String) (seen : List Char) (s t : List Cell) :
    wordPlaces keyword ((faces s).reverse ++ seen) t ⊆ wordPlaces keyword seen (s ++ t) := by
  induction s generalizing seen with
  | nil => exact List.Subset.refl _
  | cons x s ih =>
    have hs := ih (x.face :: seen)
    rw [faces_cons, List.reverse_cons, List.append_assoc, List.singleton_append, List.cons_append,
      wordPlaces]
    split
    · exact List.subset_cons_of_subset _ hs
    · exact hs

theorem exists_append_of_mem_wordPlaces {keyword : String} {seen before : List Char}
    {t : List Cell} (h : before ∈ wordPlaces keyword seen t) :
    ∃ s u, t = s ++ u ∧ before = (faces s).reverse ++ seen := by
  induction t generalizing seen with
  | nil => cases h
  | cons x t ih =>
    have hlater (h : before ∈ wordPlaces keyword (x.face :: seen) t) :
        ∃ s u, x :: t = s ++ u ∧ before = (faces s).reverse ++ seen := by
      obtain ⟨s, u, rfl, rfl⟩ := ih h
      exact ⟨x :: s, u, rfl, by simp⟩
    rw [wordPlaces] at h
    split at h
    · rcases List.mem_cons.1 h with rfl | h
      · exact ⟨[], x :: t, rfl, rfl⟩
      · exact hlater h
    · exact hlater h

/-- Whether a keyword stands in a text depends on what is before only by the word that may end
there. -/
theorem wordPlaces_eq_nil_congr (keyword : String) {seen seen' : List Char}
    (h : startsWord seen = startsWord seen') (t : List Cell) :
    wordPlaces keyword seen t = [] ↔ wordPlaces keyword seen' t = [] := by
  induction t generalizing seen seen' with
  | nil => exact Iff.rfl
  | cons x t ih =>
    have hnext : wordPlaces keyword (x.face :: seen) t = [] ↔
        wordPlaces keyword (x.face :: seen') t = [] := ih rfl
    rw [wordPlaces, wordPlaces, h]
    split
    · simp
    · exact hnext

theorem skipBy?_eq_some_iff {t rest : List Cell} :
    skipBy? t = some rest ↔ skipKeyword? "by" t = some rest ∧ endsWord rest = true := by
  simp only [skipBy?, Option.bind_eq_bind, Option.bind_eq_some_iff]
  constructor
  · rintro ⟨rest', hk, h⟩
    split at h
    · next he =>
      obtain rfl := Option.some.inj h
      exact ⟨hk, he⟩
    · cases h
  · rintro ⟨hk, he⟩
    exact ⟨rest, hk, if_pos he⟩

/-- The keyword `BY` takes two cells, the first of which shows a letter. -/
theorem eq_of_skipBy? {t rest : List Cell} (h : skipBy? t = some rest) :
    ∃ x y, t = x :: y :: rest ∧ isLetter x.face = true := by
  obtain ⟨word, hw, rfl⟩ := skipKeyword?_eq_some_iff.1 (skipBy?_eq_some_iff.1 h).1
  have hby : "by".toList = ['b', 'y'] := rfl
  rw [hby] at hw
  obtain ⟨x, u, rfl, hx, hu⟩ := List.map_eq_cons_iff.1 hw
  obtain ⟨y, v, rfl, -, hv⟩ := List.map_eq_cons_iff.1 hu
  obtain rfl := List.map_eq_nil_iff.1 hv
  refine ⟨x, y, rfl, ?_⟩
  rw [isLetter, hx]
  rfl

theorem mem_wordPlaces_by {seen : List Char} {t rest : List Cell} (hs : startsWord seen = true)
    (h : skipBy? t = some rest) : seen ∈ wordPlaces "by" seen t := by
  obtain ⟨hk, he⟩ := skipBy?_eq_some_iff.1 h
  cases t with
  | nil => cases hk
  | cons x t =>
    rw [wordPlaces, hk, hs, Option.any_some, he, Bool.and_true, if_pos rfl]
    exact List.mem_cons_self

/-- Whether no bare `BY` of a text groups. -/
def NoGrouping (seen : List Char) (t : List Cell) : Prop :=
  ∀ before ∈ wordPlaces "by" seen t, groupsBare before = false

instance (seen : List Char) (t : List Cell) : Decidable (NoGrouping seen t) :=
  inferInstanceAs (Decidable (∀ before ∈ wordPlaces "by" seen t, groupsBare before = false))

theorem NoGrouping.of_append {seen : List Char} {s t : List Cell} (h : NoGrouping seen (s ++ t)) :
    NoGrouping ((faces s).reverse ++ seen) t :=
  fun before hm => h before (wordPlaces_append_subset "by" seen s t hm)

/-- No bare `BY` groups in a text without the word. -/
theorem noGrouping_of_wordPlaces {seen : List Char} {t : List Cell} (hs : startsWord seen = true)
    (h : wordPlaces "by" [] t = []) : NoGrouping seen t := by
  have hstart : startsWord [] = startsWord seen := hs.symm
  have hnil := (wordPlaces_eq_nil_congr "by" hstart t).1 h
  intro before hbefore
  rw [hnil] at hbefore
  cases hbefore

/-- No bare `BY` groups in a query that begins with a `SELECT` where no pipe shows. -/
theorem noGrouping_select {w : List Char} (hw : '|' ∉ w) {t : List Cell} (ht : '|' ∉ faces t) :
    NoGrouping ("SELECT ".toList ++ w).reverse t := by
  intro before hbefore
  obtain ⟨s, u, rfl, rfl⟩ := exists_append_of_mem_wordPlaces hbefore
  rw [faces_append, List.mem_append, not_or] at ht
  rw [← List.reverse_append, List.append_assoc]
  exact groupsBare_select_append (List.not_mem_append hw ht.1)

/-! ## One cell -/

/-- Whether nothing that counts is read at a place: no call, no `GROUP BY`, and no bare `BY` that
groups. -/
structure Quiet (seen : List Char) (t : List Cell) : Prop where
  call : call? t = none
  groupBy : skipGroupBy? t = none
  bareBy : ∀ rest, skipBy? t = some rest → groupsBare seen = false

/-- The scan passes over one cell where nothing that counts is read. -/
theorem clauseFrom_of_quiet {seen : List Char} {x : Cell} {t : List Cell}
    (h : startsWord seen = true → Quiet seen (x :: t)) :
    clauseFrom seen (x :: t) = clauseFrom (x.face :: seen) t := by
  rcases hs : startsWord seen with _ | _
  · apply clauseFrom_of_none
    rw [read?, hs]
    rfl
  obtain ⟨hc, hg, hb⟩ := h hs
  rcases hby : skipBy? (x :: t) with _ | rest
  · exact clauseFrom_of_none (read?_eq_none seen hc hg hby)
  -- The keyword is read in one step, and no word begins at its second letter.
  obtain ⟨x', y, ht, hletter⟩ := eq_of_skipBy? hby
  obtain ⟨rfl, rfl⟩ := List.cons.inj ht
  have hr : read? seen (x :: y :: rest) = some ([.keyword [x, y] false], rest) := by
    have hup : upTo (x :: y :: rest) rest = [x, y] := upTo_append [x, y] rest
    simp only [read?, hs, hc, groupingKeyword?, hg, hby, hb rest hby, Option.map_none,
      Option.map_some, Option.none_or, hup]
    rfl
  have hn : read? (x.face :: seen) (y :: rest) = none := by
    rw [read?, startsWord, isWord_of_isLetter hletter]
    rfl
  rw [clauseFrom_of_read? hr]
  show (Clause.ofAggregations []).andThen _ = clauseFrom (x.face :: seen) (y :: rest)
  rw [Clause.ofAggregations_nil_andThen, clauseFrom_of_none hn]
  rfl

/-- Inside a word, nothing is read. -/
theorem clauseFrom_word {c : Char} {w : List Char} (hw : ∀ d ∈ c :: w, isWord d = true)
    {seen : List Char} {t : List Cell}
    (h : startsWord seen = true → Quiet seen (shown (c :: w) ++ t)) :
    clauseFrom seen (shown (c :: w) ++ t) = clauseFrom ((c :: w).reverse ++ seen) t := by
  induction w generalizing c seen with
  | nil => exact clauseFrom_of_quiet h
  | cons d w ih =>
    rw [List.forall_mem_cons] at hw
    have hinside (hs : startsWord (c :: seen) = true) :
        Quiet (c :: seen) (shown (d :: w) ++ t) := by
      rw [startsWord, hw.1] at hs
      cases hs
    calc clauseFrom seen (shown (c :: d :: w) ++ t)
        = clauseFrom (c :: seen) (shown (d :: w) ++ t) := clauseFrom_of_quiet h
      _ = clauseFrom ((d :: w).reverse ++ c :: seen) t := ih hw.2 hinside
      _ = clauseFrom ((c :: d :: w).reverse ++ seen) t := by simp

/-! ## Text that starts no name -/

theorem skipKeyword?_of_not_letter {x : Cell} (h : isLetter x.face = false) {keyword : String}
    {k : Char} {ks : List Char} (hk : keyword.toList = k :: ks) (hl : k.isLower = true)
    (t : List Cell) : skipKeyword? keyword (x :: t) = none := by
  have hne : fold x.face ≠ k := by
    intro he
    rw [isLetter, he, hl] at h
    cases h
  rw [skipKeyword?, hk, dropKeyword?, if_neg hne]

/-- Nothing is read where no name starts. -/
theorem quiet_of_dull {x : Cell} (h : isNameStart x.face = false) (seen : List Char)
    (t : List Cell) : Quiet seen (x :: t) := by
  have hl : isLetter x.face = false := (Bool.or_eq_false_iff.1 h).1
  refine ⟨?_, ?_, ?_⟩
  · rcases hc : call? (x :: t) with _ | ⟨c, rest⟩
    · rfl
    · obtain ⟨text, ht, opening, closing, clause, rfl, hstart, -⟩ := call?_eq_some_iff.1 hc
      obtain ⟨name, argument, label⟩ := c
      cases name with
      | nil => cases hstart
      | cons y name =>
        obtain ⟨rfl, -⟩ := List.cons.inj ht
        rw [List.head?_cons, Option.any_some, h] at hstart
        cases hstart
  · rw [skipGroupBy?, skipKeyword?_of_not_letter hl rfl rfl]
    rfl
  · intro rest hb
    rw [skipBy?, skipKeyword?_of_not_letter hl rfl rfl] at hb
    cases hb

theorem clauseFrom_append_of_dull {s : List Cell} (h : ∀ x ∈ s, isNameStart x.face = false)
    (seen : List Char) (t : List Cell) :
    clauseFrom seen (s ++ t) = clauseFrom ((faces s).reverse ++ seen) t := by
  induction s generalizing seen with
  | nil => rfl
  | cons x s ih =>
    rw [List.forall_mem_cons] at h
    rw [List.cons_append, clauseFrom_of_quiet fun _ => quiet_of_dull h.1 seen _, ih h.2, faces_cons,
      List.reverse_cons, List.append_assoc, List.singleton_append]

/-! ## Bare names before a break -/

/-- Whether a text is empty or starts with a break that opens no parenthesis. -/
def Breaks (t : List Cell) : Prop := ∀ x ∈ t.head?, isBreak x.face = true ∧ x.face ≠ '('

theorem breaks_cons {x : Cell} (h : isBreak x.face = true) (hne : x.face ≠ '(') (t : List Cell) :
    Breaks (x :: t) := fun _ hy => Option.some.inj hy ▸ ⟨h, hne⟩

theorem breaks_of_isBlank {x : Cell} (h : x.isBlank = true) (t : List Cell) : Breaks (x :: t) := by
  refine breaks_cons (isBreak_of_isBlank h) ?_ t
  intro hx
  rw [Cell.isBlank, hx] at h
  exact absurd h (by decide)

/-- No comment opens between a text and a break. -/
theorem Breaks.head {w : List Char} {t : List Cell} (h : Breaks (mask w ++ t)) :
    ∀ c ∈ w.head?, c ≠ '-' ∧ c ≠ '*' := by
  intro c hc
  cases w with
  | nil => cases hc
  | cons d w =>
    obtain rfl : d = c := Option.some.inj hc
    have hb : isBreak d = true := (h (.plain d) rfl).1
    constructor <;>
      · rintro rfl
        exact absurd hb (by decide)

/-- Whether what follows a name or a call belongs to neither: a name ends before it, it is no `AS`
clause, and it does not make `GROUP BY` of the word `GROUP`. -/
structure EndsTerm (t : List Cell) : Prop where
  breaks : Breaks t
  alias? : alias? t = none
  noBy : ∀ u, skipSomeBlanks? t = some u → skipBy? u = none

theorem Breaks.stops {t : List Cell} (h : Breaks t) {p : Char → Bool}
    (hp : ∀ c, isBreak c = true → p c = false) : Stops p t := fun x hx => hp _ (h x hx).1

theorem Breaks.stops_isAliasChar {t : List Cell} (h : Breaks t) : Stops isAliasChar t :=
  h.stops fun _ hc => (of_isBreak hc).1.2.2

/-- A run of name characters at the front of a text before a break ends in the text or with it. -/
theorem Breaks.run_ends {w : List Char} {run t u : List Cell} {x : Cell} (ht : Breaks t)
    (hr : ∀ y ∈ run, isAliasChar y.face = true) (h : shown w ++ t = run ++ x :: u) :
    x.face ∈ w ∨ t = x :: u := by
  rcases List.append_eq_append_iff.1 h with ⟨v, hv, hrest⟩ | ⟨v, hv, hrest⟩
  · cases v with
    | nil => exact Or.inr hrest
    | cons y v =>
      have hy := ht.stops_isAliasChar y (by rw [hrest]; rfl)
      rw [hr y (by rw [hv]; simp)] at hy
      cases hy
  · cases v with
    | nil => exact Or.inr hrest.symm
    | cons y v =>
      obtain ⟨rfl, -⟩ := List.cons.inj hrest
      have hm : x.face ∈ faces (shown w) := by
        rw [hv, faces_append, faces_cons]
        simp
      rw [faces_shown] at hm
      exact Or.inl hm

theorem call?_bare {w : List Char} (hw : '(' ∉ w) {t : List Cell} (ht : Breaks t) :
    call? (shown w ++ t) = none := by
  rcases hc : call? (shown w ++ t) with _ | ⟨c, rest⟩
  · rfl
  obtain ⟨text, hsplit, opening, closing, clause, rfl, -, hname, hopening, -⟩ :=
    call?_eq_some_iff.1 hc
  rw [List.append_assoc, List.cons_append] at hsplit
  rcases ht.run_ends (fun y hy => isAliasChar_of_isNameChar (hname y hy)) hsplit with hm | hrest
  · exact absurd (hopening ▸ hm) hw
  · exact absurd hopening (ht opening (by rw [hrest]; rfl)).2

theorem skipGroupBy?_bare {w : List Char} (hw : ∀ c ∈ w, isBlank c = false) {t : List Cell}
    (ht : EndsTerm t) : skipGroupBy? (shown w ++ t) = none := by
  rcases hg : skipGroupBy? (shown w ++ t) with _ | rest
  · rfl
  simp only [skipGroupBy?, Option.bind_eq_bind, Option.bind_eq_some_iff] at hg
  obtain ⟨t₁, h₁, t₂, h₂, h₃⟩ := hg
  obtain ⟨word, hword, hsplit⟩ := skipKeyword?_eq_some_iff.1 h₁
  have hletter := isAliasChar_of_fold hword (by decide)
  obtain ⟨gap, ⟨hne, hblank⟩, -, rfl⟩ := skipSomeBlanks?_eq_some_iff.1 h₂
  obtain ⟨x, gap, rfl⟩ := List.exists_cons_of_ne_nil hne
  rcases ht.breaks.run_ends hletter hsplit with hm | hrest
  · have hx := hblank x List.mem_cons_self
    rw [Cell.isBlank, hw _ hm] at hx
    cases hx
  · have hn := ht.noBy t₂ (by rw [hrest]; exact h₂)
    rw [hn] at h₃
    cases h₃

/-- The scan passes over a run of bare characters in which no bare `BY` groups. -/
theorem clauseFrom_bare {w : List Char} (hw : ∀ c ∈ w, isBlank c = false ∧ c ≠ '(')
    {t : List Cell} (ht : EndsTerm t) {seen : List Char} (hg : NoGrouping seen (shown w ++ t)) :
    clauseFrom seen (shown w ++ t) = clauseFrom (w.reverse ++ seen) t := by
  induction w generalizing seen with
  | nil => rfl
  | cons c w ih =>
    have hquiet (hs : startsWord seen = true) : Quiet seen (shown (c :: w) ++ t) := by
      refine ⟨?_, ?_, fun rest hby => hg seen (mem_wordPlaces_by hs hby)⟩
      · exact call?_bare (fun hm => (hw _ hm).2 rfl) ht.breaks
      · exact skipGroupBy?_bare (fun d hd => (hw d hd).1) ht
    have hnext : NoGrouping (c :: seen) (shown w ++ t) :=
      NoGrouping.of_append (s := [.plain c]) hg
    calc clauseFrom seen (shown (c :: w) ++ t)
        = clauseFrom (c :: seen) (shown w ++ t) := clauseFrom_of_quiet hquiet
      _ = clauseFrom (w.reverse ++ c :: seen) t :=
          ih (fun d hd => hw d (List.mem_cons_of_mem c hd)) hnext
      _ = clauseFrom ((c :: w).reverse ++ seen) t := by simp

/-! ## What the scan asks for -/

/-- The faces before a place behind a text, given backwards. -/
def past (seen w : List Char) : List Char := (faces (mask w)).reverse ++ seen

theorem past_append {v : List Char} (hv : Balanced v) (seen w : List Char) :
    past seen (v ++ w) = past (past seen v) w := by
  unfold past
  rw [mask_append hv, faces_append, List.reverse_append, List.append_assoc]

theorem past_of_unquoted {w : List Char} (h : ∀ c ∈ w, isQuote c = false) (seen : List Char) :
    past seen w = w.reverse ++ seen := by
  unfold past
  rw [mask_of_unquoted h, faces_shown]

theorem NoGrouping.split {seen v w : List Char} {t : List Cell} (hv : Balanced v)
    (h : NoGrouping seen (mask (v ++ w) ++ t)) :
    NoGrouping seen (mask v ++ (mask w ++ t)) ∧ NoGrouping (past seen v) (mask w ++ t) := by
  rw [mask_append hv, List.append_assoc] at h
  exact ⟨h, h.of_append⟩

/-- Whether the scan, in a text before a rest, asks for some aggregations and for nothing else, as
long as no bare `BY` groups. -/
def Asks (seen w : List Char) (t : List Cell) (as : List Aggregation) : Prop :=
  NoGrouping seen (mask w ++ t) →
    clauseFrom seen (mask w ++ t) = (Clause.ofAggregations as).andThen (clauseFrom (past seen w) t)

theorem Asks.append {seen v w : List Char} {t : List Cell} {as bs : List Aggregation}
    (hv : Balanced v) (h₁ : Asks seen v (mask w ++ t) as) (h₂ : Asks (past seen v) w t bs) :
    Asks seen (v ++ w) t (as ++ bs) := by
  have hbs : Clause.ofAggregations (as ++ bs) =
      (Clause.ofAggregations as).andThen (Clause.ofAggregations bs) := by
    simp [Clause.andThen, Clause.ofAggregations]
  intro hg
  obtain ⟨hgv, hgw⟩ := hg.split hv
  rw [mask_append hv, List.append_assoc, h₁ hgv, h₂ hgw, hbs, Clause.andThen_assoc, past_append hv]

/-- What nothing is asked for in goes before. -/
theorem Asks.skip {seen v w : List Char} {t : List Cell} {as : List Aggregation} (hv : Balanced v)
    (h₁ : Asks seen v (mask w ++ t) []) (h₂ : Asks (past seen v) w t as) :
    Asks seen (v ++ w) t as := h₁.append hv h₂

theorem asks_nil (seen : List Char) (t : List Cell) : Asks seen [] t [] := fun _ =>
  (Clause.ofAggregations_nil_andThen _).symm

theorem asks_of_eq {seen w : List Char} {t : List Cell}
    (h : NoGrouping seen (mask w ++ t) →
      clauseFrom seen (mask w ++ t) = clauseFrom (past seen w) t) : Asks seen w t [] := by
  intro hg
  rw [Clause.ofAggregations_nil_andThen, h hg]

/-- Nothing is asked for where no letter shows. -/
theorem asks_dull {w : List Char} (h : ∀ c ∈ faces (mask w), isNameStart c = false)
    (seen : List Char) (t : List Cell) : Asks seen w t [] := by
  apply asks_of_eq
  intro _
  apply clauseFrom_append_of_dull
  intro x hx
  exact h x.face (List.mem_map_of_mem hx)

theorem asks_unquoted_dull {w : List Char} (h : ∀ c ∈ w, isNameStart c = false ∧ isQuote c = false)
    (seen : List Char) (t : List Cell) : Asks seen w t [] := by
  apply asks_dull
  rw [mask_of_unquoted fun c hc => (h c hc).2, faces_shown]
  exact fun c hc => (h c hc).1

theorem asks_bare {w : List Char} (hq : ∀ c ∈ w, isQuote c = false)
    (hw : ∀ c ∈ w, isBlank c = false ∧ c ≠ '(') (seen : List Char) {t : List Cell}
    (ht : EndsTerm t) : Asks seen w t [] := by
  apply asks_of_eq
  rw [mask_of_unquoted hq, past_of_unquoted hq]
  exact clauseFrom_bare hw ht

end QueryStats.Query
