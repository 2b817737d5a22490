import QueryStats.Proofs.Alike

/-!
# Layout

White space outside quoted runs can be laid out anew: any run of it stands for any other, line
breaks and all that Unicode counts as white space included (`Relaid`).  Two queries without comments
that differ in this alone have one clause but for the layout of arguments (`ofQuery_relaid`).
-/

namespace QueryStats

open Query Text

namespace Query

/-! ## Texts laid out anew -/

/-- Whether a text is another one with some runs of white space outside quoted runs replaced by
others, none of them empty.  The two texts start outside quotes or in the run of a given quote. -/
inductive Relaid : Option Char → List Char → List Char → Prop
  | nil (q : Option Char) : Relaid q [] []
  | keep {q : Option Char} {s t : List Char} (c : Char) (h : Relaid (nextQuote q c) s t) :
      Relaid q (c :: s) (c :: t)
  | space {a b s t : List Char} (ha : IsSpace a) (hb : IsSpace b) (h : Relaid none s t) :
      Relaid none (a ++ s) (b ++ t)

/-- A text with one blank in place of each longest run of white space outside quoted runs, and with
none in place of a run that goes on from before the text. -/
def singleSpaced : Option Char → Bool → List Char → List Char
  | _, _, [] => []
  | q, goesOn, c :: t =>
    if q = none ∧ isBlank c = true then
      if goesOn then singleSpaced none true t else ' ' :: singleSpaced none true t
    else c :: singleSpaced (nextQuote q c) false t

theorem singleSpaced_space {a : List Char} (ha : IsSpace a) (s : List Char) :
    singleSpaced none true (a ++ s) = singleSpaced none true s ∧
      singleSpaced none false (a ++ s) = ' ' :: singleSpaced none true s := by
  have hon {a : List Char} (ha : ∀ c ∈ a, isBlank c = true) :
      singleSpaced none true (a ++ s) = singleSpaced none true s := by
    induction a with
    | nil => rfl
    | cons c a ih =>
      rw [List.forall_mem_cons] at ha
      rw [List.cons_append, singleSpaced, if_pos ⟨rfl, ha.1⟩, if_pos rfl, ih ha.2]
  obtain ⟨c, a, rfl⟩ := List.exists_cons_of_ne_nil ha.1
  have hrest := (List.forall_mem_cons.1 ha.2).2
  refine ⟨hon ha.2, ?_⟩
  rw [List.cons_append, singleSpaced, if_pos ⟨rfl, ha.2 c List.mem_cons_self⟩,
    if_neg Bool.false_ne_true, hon hrest]

theorem Relaid.singleSpaced {q : Option Char} {s t : List Char} (h : Relaid q s t)
    (goesOn : Bool) : singleSpaced q goesOn s = singleSpaced q goesOn t := by
  induction h generalizing goesOn with
  | nil q => rfl
  | @keep q s t c _ ih =>
    rw [Query.singleSpaced, Query.singleSpaced]
    by_cases hc : q = none ∧ isBlank c = true
    · have hq : nextQuote q c = none := by
        rw [hc.1, nextQuote_of_isBlank namesQuote_none hc.2]
      rw [hq] at ih
      rw [if_pos hc, if_pos hc, ih true]
    · rw [if_neg hc, if_neg hc, ih false]
  | @space a b s t ha hb _ ih =>
    obtain ⟨ha₁, ha₂⟩ := singleSpaced_space ha s
    obtain ⟨hb₁, hb₂⟩ := singleSpaced_space hb t
    cases goesOn with
    | false => rw [ha₂, hb₂, ih true]
    | true => rw [ha₁, hb₁, ih true]

/-- A text that starts with white space is the longest run of it and the rest. -/
theorem exists_space {c : Char} (hc : isBlank c = true) (s : List Char) :
    ∃ a s', c :: s = a ++ s' ∧ IsSpace a ∧
      singleSpaced none true s' = singleSpaced none false s' := by
  refine ⟨c :: s.takeWhile isBlank, s.dropWhile isBlank, ?_, ⟨by simp, ?_⟩, ?_⟩
  · rw [List.cons_append, List.takeWhile_append_dropWhile]
  · rw [List.forall_mem_cons]
    exact ⟨hc, fun d hd => List.mem_takeWhile_imp hd⟩
  · have hstop := List.head?_dropWhile_not isBlank s
    generalize s.dropWhile isBlank = t at hstop
    cases t with
    | nil => rfl
    | cons d t =>
      have hd : ¬((none : Option Char) = none ∧ isBlank d = true) := by simpa using hstop
      rw [singleSpaced, singleSpaced, if_neg hd, if_neg hd]

theorem singleSpaced_ne_nil (q : Option Char) (c : Char) (t : List Char) :
    Query.singleSpaced q false (c :: t) ≠ [] := by
  rw [Query.singleSpaced]
  split <;> simp

/-- A text is another one laid out anew just when the two are the same with one blank in place of
each longest run of white space. -/
theorem relaid_iff {q : Option Char} {s t : List Char} :
    Relaid q s t ↔ singleSpaced q false s = singleSpaced q false t := by
  refine ⟨fun h => h.singleSpaced false, fun h => ?_⟩
  induction hn : s.length using Nat.strong_induction_on generalizing q s t with
  | _ n ih =>
    subst hn
    cases s with
    | nil =>
      cases t with
      | nil => exact .nil q
      | cons d t => exact absurd h.symm (singleSpaced_ne_nil q d t)
    | cons c s =>
      cases t with
      | nil => exact absurd h (singleSpaced_ne_nil q c s)
      | cons d t =>
        by_cases hc : q = none ∧ isBlank c = true
        · obtain ⟨rfl, hc⟩ := hc
          have hd : isBlank d = true := by
            by_contra hd
            rw [singleSpaced, singleSpaced, if_pos ⟨rfl, hc⟩, if_neg Bool.false_ne_true,
              if_neg (by simpa using hd), List.cons.injEq] at h
            exact hd (h.1 ▸ by decide)
          obtain ⟨a, s', hs, ha, hs'⟩ := exists_space hc s
          obtain ⟨b, t', ht, hb, ht'⟩ := exists_space hd t
          rw [hs, ht] at h ⊢
          rw [(singleSpaced_space ha s').2, (singleSpaced_space hb t').2, List.cons.injEq, hs',
            ht'] at h
          refine .space ha hb (ih s'.length ?_ h.2 rfl)
          have := List.length_pos_iff.2 ha.1
          rw [hs, List.length_append]
          omega
        · have hd : ¬(q = none ∧ isBlank d = true) := by
            intro hd
            rw [singleSpaced, singleSpaced, if_neg hc, if_pos hd, if_neg Bool.false_ne_true,
              List.cons.injEq] at h
            exact hc ⟨hd.1, h.1 ▸ by decide⟩
          rw [singleSpaced, singleSpaced, if_neg hc, if_neg hd, List.cons.injEq] at h
          obtain ⟨rfl, h⟩ := h
          exact .keep c (ih s.length (Nat.lt_succ_self _) h rfl)

instance (q : Option Char) (s t : List Char) : Decidable (Relaid q s t) :=
  decidable_of_iff _ relaid_iff.symm

example : Relaid none "a \n b ' c  d'".toList "a\tb\n\n' c  d'".toList ∧
    ¬Relaid none "a ' c  d'".toList "a ' c d'".toList := by decide

/-- White space outside quoted runs may be laid out anew. -/
def Likeness.relaying : Likeness where
  char := Eq
  layout := True
  refl := Eq.refl
  toLower_eq := congrArg Char.toLower

theorem inStep_relaying_iff {q : Option Char} {s t : List Char} :
    Likeness.relaying.text.InStep q s t ↔ Relaid q s t := by
  constructor
  · intro h
    induction h with
    | nil q => exact .nil q
    | @one _ c d _ _ h _ ih =>
      obtain rfl : c = d := h
      exact .keep c ih
    | run h _ ih =>
      obtain ⟨⟨-, rfl⟩, ha, hb⟩ := h
      exact .space ha hb ih
  · intro h
    induction h with
    | nil q => exact .nil q
    | keep c _ ih => exact .one rfl ih
    | space ha hb _ ih => exact .run ⟨⟨trivial, rfl⟩, ha, hb⟩ ih

/-! ## Comments -/

theorem sharp_opensComment (c : Char) : Sharp (opensComment c) where
  caseless d := by
    have hdash : d.toLower = '-' ↔ d = '-' := toLower_eq_iff (by decide)
    have hstar : d.toLower = '*' ↔ d = '*' := toLower_eq_iff (by decide)
    simp only [opensComment, hdash, hstar]
  blank d hd := by
    refine opensComment_right ?_ ?_ c <;>
      · rintro rfl
        exact absurd hd (by decide)

theorem opensComment_congr {c d : Char} (h : c.toLower = d.toLower) (e : Char) :
    opensComment c e = opensComment d e := by
  have hdash : c = '-' ↔ d = '-' := eq_iff_of_toLower_eq (by decide) h
  have hslash : c = '/' ↔ d = '/' := eq_iff_of_toLower_eq (by decide) h
  simp only [opensComment, hdash, hslash]

theorem isChain_append_of_isSpace {s t : List Char} (hs : ∀ c ∈ s, isBlank c = true)
    (ht : t.IsChain fun a b => opensComment a b = false) :
    (s ++ t).IsChain fun a b => opensComment a b = false := by
  induction s with
  | nil => exact ht
  | cons c s ih =>
    rw [List.forall_mem_cons] at hs
    refine isChain_cons_of_inert ?_ ?_ (ih hs.2) <;>
      · rintro rfl
        exact absurd hs.1 (by decide)

theorem isChain_of_inStep {x : Unit} {s t : List Char} (h : Likeness.look.InStep x s t)
    (hs : s.IsChain fun a b => opensComment a b = false) :
    t.IsChain fun a b => opensComment a b = false := by
  induction h with
  | nil => exact hs
  | @one _ c d s t h hr ih =>
    have hnone (c : Char) (s : List Char) :
        (∀ b ∈ s.head?, opensComment c b = false) ↔ s.head?.any (opensComment c) = false := by
      cases s <;> simp
    rw [List.isChain_cons, hnone] at hs ⊢
    have hhead := hr.any_head? (Likeness.blind_look (sharp_opensComment d).coarse)
    have hd : opensComment c = opensComment d := funext (opensComment_congr h)
    rw [← hhead, ← hd]
    exact ⟨hs.1, ih hs.2⟩
  | run h hr ih =>
    exact isChain_append_of_isSpace h.2.2 (ih (List.isChain_append.1 hs).2.1)

/-- Texts in step are free of comments alike. -/
theorem CommentFree.of_inStep {L : Likeness} {s t : List Char} (h : L.text.InStep none s t)
    (hs : CommentFree s) : CommentFree t :=
  isChain_of_inStep (Likeness.inStep_faces (Likeness.inStep_mask namesQuote_none h)) hs

end Query

/-! ## Queries -/

/-- Whether two aggregations are equal but for the layout of their arguments. -/
structure Aggregation.Relaid (a b : Aggregation) : Prop where
  name : a.name = b.name
  argument : Query.Relaid none a.argument.toList b.argument.toList
  percentile : a.percentile = b.percentile
  label : a.label = b.label

theorem eq_of_words {s t : String} (h : Likeness.relaying.Words s t) : s = t :=
  String.toList_injective (List.forall₂_eq_eq_eq ▸ h)

theorem Aggregation.Alike.relaid {a b : Aggregation} (h : a.Alike .relaying b) : a.Relaid b where
  name := eq_of_words h.name
  argument := inStep_relaying_iff.1 h.argument
  percentile := h.percentile
  label := eq_of_words h.label

theorem Bucket.Alike.eq {a b : Bucket} (h : Bucket.Alike .relaying a b) : a = b := by
  obtain ⟨hfield, hamount, hunit, hkind, hlabel⟩ := h
  cases a
  cases b
  simp only [Bucket.mk.injEq]
  exact ⟨eq_of_words hfield, eq_of_words hamount, eq_of_words hunit, hkind, eq_of_words hlabel⟩

theorem Clause.Alike.grouping_eq {c d : Clause} (h : Clause.Alike .relaying c d) :
    c.grouping = d.grouping := by
  have hfields : c.grouping.fields = d.grouping.fields :=
    List.forall₂_eq_eq_eq ▸ h.fields.imp fun _ _ => eq_of_words
  have hbucket : c.grouping.bucket = d.grouping.bucket := by
    have hrel := h.bucket
    generalize c.grouping.bucket = a at hrel
    generalize d.grouping.bucket = b at hrel
    cases hrel with
    | none => rfl
    | some hab => rw [hab.eq]
  calc c.grouping = ⟨c.grouping.fields, c.grouping.bucket⟩ := rfl
    _ = d.grouping := by rw [hfields, hbucket]

/-- Layout never matters: a query without comments and the same query laid out anew have one clause
but for the layout of arguments. -/
theorem ofQuery_relaid {query query' : String} (hc : CommentFree query.toList)
    (h : Relaid none query.toList query'.toList) :
    List.Forall₂ Aggregation.Relaid (Clause.ofQuery query).aggregations
        (Clause.ofQuery query').aggregations ∧
      (Clause.ofQuery query).grouping = (Clause.ofQuery query').grouping := by
  have hstep := inStep_relaying_iff.2 h
  have halike := Clause.alike_ofChars hstep
  rw [Clause.ofQuery, Clause.ofQuery, stripFrom_of_commentFree hc,
    stripFrom_of_commentFree (hc.of_inStep hstep)]
  exact ⟨halike.aggregations.imp fun _ _ h => h.relaid, halike.grouping_eq⟩

/-- A query in one line and in many, with other white space than blanks; the quoted text stays. -/
theorem ofQuery_relaid_lines :
    (CommentFree "SELECT max(a + ' b  c ') AS m FROM t GROUP BY SPAN(ts, 1 h), dc".toList ∧
      Relaid none "SELECT max(a + ' b  c ') AS m FROM t GROUP BY SPAN(ts, 1 h), dc".toList (
        "SELECT\n\tmax(a\u2003+\n' b  c ')\r\nAS\u00a0m FROM t\nGROUP\n BY SPAN(ts,\u30001\th),\ndc"
        ).toList) ∧
    List.Forall₂ Aggregation.Relaid (Clause.ofQuery
        "SELECT max(a + ' b  c ') AS m FROM t GROUP BY SPAN(ts, 1 h), dc"
        ).aggregations (Clause.ofQuery
        "SELECT\n\tmax(a\u2003+\n' b  c ')\r\nAS\u00a0m FROM t\nGROUP\n BY SPAN(ts,\u30001\th),\ndc"
        ).aggregations ∧
      (Clause.ofQuery
        "SELECT max(a + ' b  c ') AS m FROM t GROUP BY SPAN(ts, 1 h), dc"
        ).grouping = (Clause.ofQuery
        "SELECT\n\tmax(a\u2003+\n' b  c ')\r\nAS\u00a0m FROM t\nGROUP\n BY SPAN(ts,\u30001\th),\ndc"
        ).grouping := by
  have hfree : CommentFree
      "SELECT max(a + ' b  c ') AS m FROM t GROUP BY SPAN(ts, 1 h), dc".toList := by
    decide +kernel
  have hrelaid : Relaid none
      "SELECT max(a + ' b  c ') AS m FROM t GROUP BY SPAN(ts, 1 h), dc".toList (
      "SELECT\n\tmax(a\u2003+\n' b  c ')\r\nAS\u00a0m FROM t\nGROUP\n BY SPAN(ts,\u30001\th),\ndc"
      ).toList := by
    decide +kernel
  exact ⟨⟨hfree, hrelaid⟩, ofQuery_relaid hfree hrelaid⟩

end QueryStats
