import QueryStats.Proofs.Capture

/-!
# The forms that are read

A quoted run, a name, an `AS` clause and a call are described here by the characters that make them
up.  Each recogniser succeeds just where a text of its form stands, and reads all of that text; for
a call this is `call?_eq_some_iff`.
-/

namespace QueryStats.Query

open Text

/-! ## Runs and names -/

theorem stops_dropWhile (p : Char → Bool) (t : List Cell) :
    Stops p (t.dropWhile (p ·.face)) := by
  intro x hx
  have := List.head?_dropWhile_not (p ·.face) t
  rw [Option.mem_def] at hx
  rw [hx] at this
  exact this

theorem run?_eq_some_iff {p : Char → Bool} {t run rest : List Cell} :
    run? p t = some (run, rest) ↔
      run ≠ [] ∧ (∀ x ∈ run, p x.face = true) ∧ Stops p rest ∧ t = run ++ rest := by
  constructor
  · intro h
    obtain ⟨hne, ht⟩ := run?_append h
    refine ⟨hne, forall_of_run? h, ?_, ht⟩
    rw [run?] at h
    split at h
    · cases h
    · rw [Option.some.injEq, Prod.mk.injEq] at h
      rw [← h.2]
      exact stops_dropWhile p t
  · rintro ⟨hne, hp, hs, rfl⟩
    exact run?_append_of_stops hne hp hs

/-- Two quotes and what stands between them, which is no such quote. -/
def IsQuotedRun (q : Char) (text : List Cell) : Prop :=
  ∃ x body y, text = x :: (body ++ [y]) ∧ x.face = q ∧ (∀ z ∈ body, z.face ≠ q) ∧ y.face = q

theorem quoted?_eq_some_iff {q : Char} {t text rest : List Cell} :
    quoted? q t = some (text, rest) ↔ IsQuotedRun q text ∧ t = text ++ rest := by
  constructor
  · intro h
    have ht := (quoted?_append h).2
    cases t with
    | nil => cases h
    | cons x t =>
      rw [quoted?] at h
      split at h
      · next hx =>
        split at h
        · cases h
        · next y rest' hd =>
          rw [Option.some.injEq, Prod.mk.injEq] at h
          obtain ⟨rfl, rfl⟩ := h
          refine ⟨⟨x, _, y, rfl, hx, fun z hz => ?_, ?_⟩, ht⟩
          · have := List.mem_takeWhile_imp (p := fun z : Cell => z.face != q) hz
            exact bne_iff_ne.1 this
          · have := stops_dropWhile (· != q) t y (by rw [hd]; rfl)
            simpa using this
      · cases h
  · rintro ⟨⟨x, body, y, rfl, hx, hb, hy⟩, rfl⟩
    have hs : Stops (· != q) (y :: rest) := stops_cons (by simp [hy]) rest
    have hb' : ∀ z ∈ body, (z.face != q) = true := fun z hz => bne_iff_ne.2 (hb z hz)
    rw [List.cons_append, List.append_assoc, List.singleton_append, quoted?, if_pos hx,
      dropWhile_append_of_stops (p := (· != q)) hb' hs,
      takeWhile_append_of_stops (p := (· != q)) hb' hs]
    rfl

/-- A name before a rest: between back quotes, between double quotes, or the longest run of
characters that pass a test. -/
def IsName (p : Char → Bool) (text rest : List Cell) : Prop :=
  IsQuotedRun backQuote text ∨ IsQuotedRun doubleQuote text ∨
    text ≠ [] ∧ (∀ x ∈ text, p x.face = true) ∧ Stops p rest

/-- A bare name starts with no quote, so the three ways to write a name exclude each other. -/
theorem quoted?_eq_none_of_run {p : Char → Bool} {q : Char} (hq : p q = false)
    {text rest : List Cell} (hne : text ≠ []) (ht : ∀ x ∈ text, p x.face = true) :
    quoted? q (text ++ rest) = none := by
  obtain ⟨x, u, rfl⟩ := List.exists_cons_of_ne_nil hne
  refine quoted?_of_face_ne (fun hx => ?_) _
  have := ht x List.mem_cons_self
  rw [hx, hq] at this
  cases this

theorem name?_eq_some_iff {p : Char → Bool} (hb : p backQuote = false) (hd : p doubleQuote = false)
    {t text rest : List Cell} :
    name? p t = some (text, rest) ↔ IsName p text rest ∧ t = text ++ rest := by
  constructor
  · intro h
    have ht := (name?_append h).2
    rw [name?, Option.or_eq_some_iff, Option.or_eq_some_iff] at h
    rcases h with h | ⟨-, h | ⟨-, h⟩⟩
    · exact ⟨Or.inl (quoted?_eq_some_iff.1 h).1, ht⟩
    · exact ⟨Or.inr (Or.inl (quoted?_eq_some_iff.1 h).1), ht⟩
    · obtain ⟨hne, hp, hs, -⟩ := run?_eq_some_iff.1 h
      exact ⟨Or.inr (Or.inr ⟨hne, hp, hs⟩), ht⟩
  · rintro ⟨h | h | ⟨hne, hp, hs⟩, rfl⟩
    · rw [name?, quoted?_eq_some_iff.2 ⟨h, rfl⟩, Option.some_or]
    · obtain ⟨x, body, y, rfl, hx, -⟩ := id h
      have hn : quoted? backQuote (x :: (body ++ [y]) ++ rest) = none :=
        quoted?_of_face_ne (by rw [hx]; decide) _
      rw [name?, hn, quoted?_eq_some_iff.2 ⟨h, rfl⟩, Option.none_or, Option.some_or]
    · rw [name?, quoted?_eq_none_of_run hb hne hp, quoted?_eq_none_of_run hd hne hp,
        run?_append_of_stops hne hp hs]
      rfl

/-! ## Aliases -/

/-- A run of white space. -/
def IsGap (text : List Cell) : Prop := text ≠ [] ∧ ∀ x ∈ text, x.isBlank = true

theorem skipSomeBlanks?_eq_some_iff {t rest : List Cell} :
    skipSomeBlanks? t = some rest ↔ ∃ gap, IsGap gap ∧ Stops isBlank rest ∧ t = gap ++ rest := by
  constructor
  · intro h
    cases t with
    | nil => cases h
    | cons x t =>
      rw [skipSomeBlanks?] at h
      split at h
      · next hx =>
        rw [← Option.some.inj h]
        refine ⟨x :: t.takeWhile Cell.isBlank, ⟨by simp, ?_⟩, stops_dropWhile isBlank t, ?_⟩
        · rw [List.forall_mem_cons]
          exact ⟨hx, fun y hy => List.mem_takeWhile_imp hy⟩
        · rw [List.cons_append]
          exact congrArg (x :: ·) (List.takeWhile_append_dropWhile).symm
      · cases h
  · rintro ⟨gap, ⟨hne, hb⟩, hs, rfl⟩
    obtain ⟨x, u, rfl⟩ := List.exists_cons_of_ne_nil hne
    rw [List.forall_mem_cons] at hb
    have hd : skipBlanks (u ++ rest) = rest := dropWhile_append_of_stops hb.2 hs
    rw [List.cons_append, skipSomeBlanks?, if_pos hb.1, hd]

theorem dropKeyword?_of_map {α : Type} {letter : α → Char} {word : List α} (rest : List α) :
    dropKeyword? letter (word.map letter) (word ++ rest) = some rest := by
  induction word with
  | nil => rfl
  | cons x word ih => rw [List.map_cons, List.cons_append, dropKeyword?, if_pos rfl, ih]

theorem skipKeyword?_eq_some_iff {keyword : String} {t rest : List Cell} :
    skipKeyword? keyword t = some rest ↔
      ∃ word, word.map (fold ·.face) = keyword.toList ∧ t = word ++ rest := by
  constructor
  · intro h
    obtain ⟨word, ht, hw⟩ := dropKeyword?_append h
    exact ⟨word, hw, ht⟩
  · rintro ⟨word, hw, rfl⟩
    rw [skipKeyword?, ← hw, dropKeyword?_of_map]

/-- An `AS` clause before a rest: white space, the keyword, white space and a name. -/
def IsAsClause (clause name rest : List Cell) : Prop :=
  ∃ gap word gap', clause = gap ++ (word ++ (gap' ++ name)) ∧ IsGap gap ∧
    word.map (fold ·.face) = "as".toList ∧ IsGap gap' ∧ IsName isAliasChar name rest

theorem stops_isBlank_of_isName {name rest : List Cell} (h : IsName isAliasChar name rest) :
    Stops isBlank (name ++ rest) := by
  rcases h with ⟨x, body, y, rfl, hx, -⟩ | ⟨x, body, y, rfl, hx, -⟩ | ⟨hne, hp, -⟩
  · exact stops_cons (by rw [hx]; decide) _
  · exact stops_cons (by rw [hx]; decide) _
  · obtain ⟨x, u, rfl⟩ := List.exists_cons_of_ne_nil hne
    exact stops_cons (isBlank_of_isAliasChar (hp x List.mem_cons_self)) _

theorem stops_isBlank_of_fold {word t : List Cell} {k : Char} {ks : List Char}
    (h : word.map (fold ·.face) = k :: ks) (hk : k.isLower = true) :
    Stops isBlank (word ++ t) := by
  obtain ⟨x, u, rfl, hx, -⟩ := List.map_eq_cons_iff.1 h
  refine stops_cons (isBlank_of_isAliasChar (isAliasChar_of_isLetter ?_)) _
  rw [isLetter, hx, hk]

theorem alias?_eq_some_iff {t name rest : List Cell} :
    alias? t = some (name, rest) ↔ ∃ clause, t = clause ++ rest ∧ IsAsClause clause name rest := by
  simp only [alias?, Option.bind_eq_bind, Option.bind_eq_some_iff]
  constructor
  · rintro ⟨t₁, h₁, t₂, h₂, t₃, h₃, h₄⟩
    obtain ⟨gap, hgap, -, rfl⟩ := skipSomeBlanks?_eq_some_iff.1 h₁
    obtain ⟨word, hword, rfl⟩ := skipKeyword?_eq_some_iff.1 h₂
    obtain ⟨gap', hgap', -, rfl⟩ := skipSomeBlanks?_eq_some_iff.1 h₃
    obtain ⟨hname, rfl⟩ := (name?_eq_some_iff (by decide) (by decide)).1 h₄
    exact ⟨gap ++ (word ++ (gap' ++ name)), by simp, gap, word, gap', rfl, hgap, hword, hgap',
      hname⟩
  · rintro ⟨clause, rfl, gap, word, gap', rfl, hgap, hword, hgap', hname⟩
    refine ⟨word ++ (gap' ++ (name ++ rest)), ?_, gap' ++ (name ++ rest), ?_, name ++ rest, ?_, ?_⟩
    · exact skipSomeBlanks?_eq_some_iff.2
        ⟨gap, hgap, stops_isBlank_of_fold hword (by decide), by simp⟩
    · exact skipKeyword?_eq_some_iff.2 ⟨word, hword, rfl⟩
    · exact skipSomeBlanks?_eq_some_iff.2 ⟨gap', hgap', stops_isBlank_of_isName hname, rfl⟩
    · exact (name?_eq_some_iff (by decide) (by decide)).2 ⟨hname, rfl⟩

/-- A clause that gives a label, before a rest: the `AS` clause that stands there, or nothing where
none does. -/
def IsLabelling (clause : List Cell) (label : Option (List Cell)) (rest : List Cell) : Prop :=
  match label with
  | some name => IsAsClause clause name rest
  | none => clause = [] ∧ ∀ clause' name rest', rest = clause' ++ rest' →
      ¬IsAsClause clause' name rest'

theorem optionalAlias_eq_iff {t rest : List Cell} {label : Option (List Cell)} :
    optionalAlias t = (label, rest) ↔
      ∃ clause, t = clause ++ rest ∧ IsLabelling clause label rest := by
  rw [optionalAlias]
  rcases ha : alias? t with _ | ⟨name, rest'⟩
  · have hno : ∀ clause name rest', t = clause ++ rest' → ¬IsAsClause clause name rest' := by
      intro clause name rest' ht hc
      rw [alias?_eq_some_iff.2 ⟨clause, ht, hc⟩] at ha
      cases ha
    constructor
    · intro h
      obtain ⟨rfl, rfl⟩ := Prod.mk.inj h
      exact ⟨[], rfl, rfl, hno⟩
    · rintro ⟨clause, ht, h⟩
      cases label with
      | none =>
        obtain ⟨rfl, -⟩ := h
        rw [ht]
        rfl
      | some name => exact absurd h (hno clause name rest ht)
  · constructor
    · intro h
      obtain ⟨rfl, rfl⟩ := Prod.mk.inj h
      exact alias?_eq_some_iff.1 ha
    · rintro ⟨clause, ht, h⟩
      cases label with
      | none =>
        obtain ⟨rfl, hno⟩ := h
        obtain ⟨clause', ht', hc⟩ := alias?_eq_some_iff.1 ha
        rw [List.nil_append] at ht
        exact absurd hc (hno clause' name rest' (ht ▸ ht'))
      | some name' =>
        have hs := alias?_eq_some_iff.2 ⟨clause, ht, h⟩
        rw [ha, Option.some.injEq] at hs
        obtain ⟨rfl, rfl⟩ := Prod.mk.inj hs
        rfl

/-! ## What follows a call -/

theorem dropKeyword?_map {α β : Type} (f : α → β) (letter : β → Char) (ks : List Char)
    (t : List α) :
    dropKeyword? letter ks (t.map f) = (dropKeyword? (letter ∘ f) ks t).map (List.map f) := by
  induction ks generalizing t with
  | nil => rfl
  | cons k ks ih =>
    cases t with
    | nil => rfl
    | cons x t =>
      rw [List.map_cons, dropKeyword?, dropKeyword?, ih, Function.comp_apply]
      split <;> rfl

theorem startsWithKeywordBy_map {α β : Type} (f : α → β) (face : β → Char) (keyword : List Char)
    (t : List α) :
    startsWithKeywordBy face keyword (t.map f) = startsWithKeywordBy (face ∘ f) keyword t := by
  have hletter : (fun x => (face x).toLower) ∘ f = fun x => ((face ∘ f) x).toLower := rfl
  rw [startsWithKeywordBy, startsWithKeywordBy, dropKeyword?_map, hletter]
  rcases dropKeyword? (fun x => ((face ∘ f) x).toLower) (keyword.map Char.toLower) t with
    _ | _ | ⟨x, u⟩ <;> rfl

theorem faces_skipBlanks (t : List Cell) : faces (skipBlanks t) = trimStart (faces t) := by
  rw [trimStart, faces, faces, skipBlanks, List.dropWhile_map]
  rfl

/-- Whether a list of aggregations may go on or end before a rest: after white space it is empty or
starts with a comma, a pipe, a semicolon or one of the keywords `FROM` and `BY`. -/
def EndsRequest (rest : List Cell) : Prop :=
  trimStart (faces rest) = [] ∨
    (∃ c ∈ (trimStart (faces rest)).head?, c = ',' ∨ c = '|' ∨ c = ';') ∨
    startsWithKeywordBy id "FROM".toList (trimStart (faces rest)) = true ∨
    startsWithKeywordBy id "BY".toList (trimStart (faces rest)) = true

theorem endsItem_eq_true_iff (rest : List Cell) : endsItem rest = true ↔ EndsRequest rest := by
  have hkeyword (w : String) (t : List Cell) :
      startsWithKeywordBy id w.toList (faces t) = startsWithKeywordBy Cell.face w.toList t :=
    startsWithKeywordBy_map Cell.face id w.toList t
  rw [EndsRequest, ← faces_skipBlanks, hkeyword, hkeyword, endsItem]
  rcases skipBlanks rest with _ | ⟨x, t⟩
  · simp
  · have hfrom : startsWithKeywordBy Cell.face "FROM".toList (x :: t) =
        startsWithKeywordBy Cell.face "from".toList (x :: t) := rfl
    have hby : startsWithKeywordBy Cell.face "BY".toList (x :: t) =
        startsWithKeywordBy Cell.face "by".toList (x :: t) := rfl
    rw [hfrom, hby]
    simp [or_assoc]

/-! ## Calls -/

/-- The text of a call before a rest: a name, an argument in parentheses without parentheses in it,
and the `AS` clause if one follows. -/
def IsCall (text : List Cell) (c : Call) (rest : List Cell) : Prop :=
  ∃ opening closing clause, text = c.name ++ opening :: (c.argument ++ closing :: clause) ∧
    c.name.head?.any (isNameStart ·.face) = true ∧ (∀ x ∈ c.name, isNameChar x.face = true) ∧
    opening.face = '(' ∧ (∀ x ∈ c.argument, isParenthesis x.face = false) ∧ closing.face = ')' ∧
    IsLabelling clause c.label rest

theorem skipChar?_eq_some_iff {c : Char} {t rest : List Cell} :
    skipChar? c t = some rest ↔ ∃ x, x.face = c ∧ t = x :: rest := by
  cases t with
  | nil => simp [skipChar?]
  | cons y t =>
    rw [skipChar?]
    by_cases hy : y.face = c <;> simp [hy]

/-- A call is read just where the text of one stands, up to the end of that text. -/
theorem call?_eq_some_iff {t rest : List Cell} {c : Call} :
    call? t = some (c, rest) ↔ ∃ text, t = text ++ rest ∧ IsCall text c rest := by
  simp only [call?, Option.bind_eq_bind, Option.bind_eq_some_iff]
  constructor
  · rintro ⟨⟨name, r₁⟩, h₁, h⟩
    simp only at h
    split at h
    · cases h
    next hstart =>
    simp only [Option.bind_eq_some_iff] at h
    obtain ⟨r₂, h₂, r₃, h₃, h⟩ := h
    rcases hopt : optionalAlias r₃ with ⟨label, r₄⟩
    simp only [hopt, Option.pure_def, Option.some.injEq, Prod.mk.injEq] at h
    obtain ⟨rfl, rfl⟩ := h
    obtain ⟨hne, hname, -, rfl⟩ := run?_eq_some_iff.1 h₁
    obtain ⟨opening, ho, rfl⟩ := skipChar?_eq_some_iff.1 h₂
    obtain ⟨closing, hc, hdrop⟩ := skipChar?_eq_some_iff.1 h₃
    obtain ⟨clause, hclause, hl⟩ := optionalAlias_eq_iff.1 hopt
    refine ⟨name ++ opening :: (r₂.takeWhile (!isParenthesis ·.face) ++ closing :: clause), ?_,
      opening, closing, clause, rfl, by simpa using hstart, hname, ho, fun x hx => ?_, hc, hl⟩
    · have hr : r₂.takeWhile (!isParenthesis ·.face) ++ closing :: r₃ = r₂ := by
        rw [← hdrop, List.takeWhile_append_dropWhile]
      rw [List.append_assoc, List.cons_append, List.append_assoc, List.cons_append, ← hclause, hr]
    · have := List.mem_takeWhile_imp (p := fun x : Cell => !isParenthesis x.face) hx
      simpa using this
  · obtain ⟨name, argument, label⟩ := c
    rintro ⟨text, rfl, opening, closing, clause, rfl, hstart, hname, ho, ha, hc, hl⟩
    simp only at hstart hname ha hl
    have hne : name ≠ [] := by
      rintro rfl
      cases hstart
    have hrun : run? isNameChar (name ++ opening :: (argument ++ closing :: (clause ++ rest))) =
        some (name, opening :: (argument ++ closing :: (clause ++ rest))) :=
      run?_append_of_stops hne hname (stops_cons (by rw [ho]; decide) _)
    have ha' : ∀ x ∈ argument, (!isParenthesis x.face) = true := fun x hx => by rw [ha x hx]; rfl
    have hp : Stops (!isParenthesis ·) (closing :: (clause ++ rest)) :=
      stops_cons (by rw [hc]; decide) _
    refine ⟨(name, opening :: (argument ++ closing :: (clause ++ rest))), by simpa using hrun, ?_⟩
    simp only [hstart, Bool.not_true, Bool.false_eq_true, if_false, Option.bind_eq_some_iff]
    refine ⟨argument ++ closing :: (clause ++ rest), skipChar?_eq_some_iff.2 ⟨opening, ho, rfl⟩,
      clause ++ rest, ?_, ?_⟩
    · rw [dropWhile_append_of_stops (p := (!isParenthesis ·)) ha' hp]
      exact skipChar?_eq_some_iff.2 ⟨closing, hc, rfl⟩
    · rw [takeWhile_append_of_stops (p := (!isParenthesis ·)) ha' hp,
        optionalAlias_eq_iff.2 ⟨clause, rfl, hl⟩]
      rfl

theorem IsCall.ne_nil {text rest : List Cell} {c : Call} (h : IsCall text c rest) : text ≠ [] := by
  obtain ⟨opening, closing, clause, rfl, -⟩ := h
  simp

end QueryStats.Query
