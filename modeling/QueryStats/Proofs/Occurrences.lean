import QueryStats.Proofs.Forms

/-!
# Where calls stand

The aggregations of a query are the calls that ask for one, wherever they stand in the text.  An
`Occurrence` is a stretch of masked text of the form of a call, said without the scan.  The scan
comes to places one after the other (`Reaches`) and reads whole stretches there (`Reads`); it
reports just those occurrences that ask for an aggregation and that no earlier stretch runs into
(`ofQuery_aggregations`).
-/

namespace QueryStats.Query

open Text

/-! ## Occurrences -/

/-- A place of a text where a call stands, its name not inside a longer word. -/
structure Occurrence (t : List Cell) where
  before : List Cell
  text : List Cell
  after : List Cell
  call : Call
  split : before ++ (text ++ after) = t
  startsWord : startsWord (faces before).reverse = true
  isCall : IsCall text call after

namespace Occurrence

variable {t : List Cell}

/-- The number of cells before the call. -/
def start (o : Occurrence t) : Nat := o.before.length

/-- The number of cells up to the end of the call. -/
def stop (o : Occurrence t) : Nat := o.before.length + o.text.length

/-- Whether the call asks for an aggregation: it ends an item of a list, and the word before it is
none that makes it an operand of a condition. -/
structure Requested (o : Occurrence t) : Prop where
  endsItem : EndsRequest o.after
  noCondition : ∀ word ∈ conditionWords,
    eqIgnoreCase (wordBefore (faces o.before).reverse) word.toList = false

/-- The aggregation that the call asks for: the name as it shows, the argument and the label as
written. -/
def aggregation (o : Occurrence t) : Aggregation where
  name := String.ofList (faces o.call.name)
  argument := String.ofList (trim (sources o.call.argument))
  percentile := ""
  label := (o.call.label.map fun label => unquote (sourceText label)).getD ""

theorem start_lt_stop (o : Occurrence t) : o.start < o.stop :=
  Nat.lt_add_of_pos_right (List.length_pos_iff.2 o.isCall.ne_nil)

theorem start_lt_length (o : Occurrence t) : o.start < t.length := by
  have hlt := o.start_lt_stop
  have hlen := congrArg List.length o.split
  rw [List.length_append, List.length_append] at hlen
  rw [start, stop] at hlt
  rw [start]
  omega

theorem isRequested_iff (o : Occurrence t) :
    isRequested (faces o.before).reverse o.after = true ↔ o.Requested := by
  rw [isRequested, Bool.and_eq_true, endsItem_eq_true_iff, Bool.not_eq_true', follows,
    List.any_eq_false]
  refine ⟨fun h => ⟨h.1, fun word hw => ?_⟩, fun h => ⟨h.1, fun word hw => ?_⟩⟩
  · exact Bool.not_eq_true _ ▸ h.2 word hw
  · exact Bool.not_eq_true _ ▸ h.2 word hw

/-- A reader that comes to an occurrence reads the call. -/
theorem read? (o : Occurrence t) :
    Query.read? (faces o.before).reverse (o.text ++ o.after) =
      some ([.call o.text o.call (isRequested (faces o.before).reverse o.after)], o.after) := by
  have hc : call? (o.text ++ o.after) = some (o.call, o.after) :=
    call?_eq_some_iff.2 ⟨o.text, rfl, o.isCall⟩
  simp only [Query.read?, o.startsWord, hc, upTo_append]
  rfl

/-- Two occurrences at one place are the same. -/
theorem eq_of_start_eq {o o' : Occurrence t} (h : o.start = o'.start) : o = o' := by
  obtain ⟨before, text, after, call, hsplit, hs, hc⟩ := o
  obtain ⟨before', text', after', call', hsplit', hs', hc'⟩ := o'
  obtain ⟨rfl, hrest⟩ := List.append_inj (hsplit.trans hsplit'.symm) h
  have hr := call?_eq_some_iff.2 ⟨text, rfl, hc⟩
  rw [hrest, call?_eq_some_iff.2 ⟨text', rfl, hc'⟩, Option.some.injEq, Prod.mk.injEq] at hr
  obtain ⟨rfl, rfl⟩ := hr
  obtain rfl := List.append_cancel_right hrest
  rfl

end Occurrence

/-! ## The places of a scan -/

/-- The places that the scan of a text comes to: what is before and after each. -/
inductive Reaches (t : List Cell) : List Cell → List Cell → Prop
  | start : Reaches t [] t
  /-- What stands at the place is read, and the scan goes on behind it. -/
  | read {before rest after : List Cell} {ps : List Piece} (h : Reaches t before rest)
      (hr : read? (faces before).reverse rest = some (ps, after)) :
      Reaches t (before ++ texts ps) after
  /-- Nothing is read at the place, and the scan passes over one cell. -/
  | pass {before rest : List Cell} {x : Cell} (h : Reaches t before (x :: rest))
      (hr : read? (faces before).reverse (x :: rest) = none) :
      Reaches t (before ++ [x]) rest

/-- Whether the scan of a text reads some pieces in one step, behind `before`: a call, asked for or
not, with its `AS` clause; a keyword alone, if it opens no list; or a keyword and all of the list
that it opens. -/
def Reads (t before : List Cell) (ps : List Piece) : Prop :=
  ∃ rest after, Reaches t before rest ∧ read? (faces before).reverse rest = some (ps, after)

/-- Whether nothing that the scan reads from an earlier place on runs into the call. -/
def Occurrence.Free {t : List Cell} (o : Occurrence t) : Prop :=
  ∀ before ps, Reads t before ps → before.length < o.start →
    before.length + (texts ps).length ≤ o.start

section

variable {t before rest after before' : List Cell} {ps : List Piece}

theorem Reaches.append (h : Reaches t before rest) : before ++ rest = t := by
  induction h with
  | start => rfl
  | read h hr ih => rw [List.append_assoc, ← (read?_append hr).2, ih]
  | pass h hr ih => rw [List.append_assoc, List.singleton_append, ih]

/-- Two places of a scan with as much text before them are the same. -/
theorem Reaches.rest_eq {rest' : List Cell} (h : Reaches t before rest)
    (h' : Reaches t before' rest') (hl : before.length = before'.length) :
    before = before' ∧ rest = rest' :=
  List.append_inj (h.append.trans h'.append.symm) hl

/-- The scan comes to no place inside what it reads. -/
theorem Reads.length_le (hr : Reads t before ps) (h' : Reaches t before' rest)
    (hlt : before.length < before'.length) :
    before.length + (texts ps).length ≤ before'.length := by
  -- By induction on the later place: if the step that leads to it starts at the earlier one, the
  -- two steps are the same; if it starts before, it cannot run over the earlier place.
  induction hn : before'.length using Nat.strong_induction_on
    generalizing before before' ps rest with
  | _ n ih =>
    subst hn
    obtain ⟨r, after, h, hread⟩ := hr
    cases h' with
    | start => cases hlt
    | @read b r' a qs h'' hread' =>
      rw [List.length_append] at hlt ⊢
      have hpos := List.length_pos_iff.2 (read?_append hread').1
      rcases Nat.lt_trichotomy before.length b.length with hb | hb | hb
      · have := ih b.length (by rw [List.length_append]; omega) ⟨r, after, h, hread⟩ h'' hb rfl
        omega
      · obtain ⟨rfl, rfl⟩ := h.rest_eq h'' hb
        rw [hread, Option.some.injEq, Prod.mk.injEq] at hread'
        rw [hread'.1]
      · have hlt : before.length < (b ++ texts qs).length := by
          rw [List.length_append]
          omega
        have := ih before.length hlt ⟨r', rest, h'', hread'⟩ h hb rfl
        omega
    | @pass b r' x h'' hread' =>
      rw [List.length_append, List.length_singleton] at hlt ⊢
      rcases Nat.lt_or_ge before.length b.length with hb | hb
      · have := ih b.length (by rw [List.length_append, List.length_singleton]; omega)
          ⟨r, after, h, hread⟩ h'' hb rfl
        omega
      · obtain ⟨rfl, rfl⟩ := h.rest_eq h'' (by omega)
        rw [hread] at hread'
        cases hread'

end

/-! ## What a step asks for -/

theorem requested?_listPieces (t : List Cell) :
    (listPieces t).1.filterMap Piece.requested? = [] := by
  have hitem {t rest : List Cell} {p : Piece} (h : item? t = some (p, rest)) :
      p.requested? = none := by
    rw [item?] at h
    split at h
    · rw [Option.some.injEq, Prod.mk.injEq] at h
      rw [← h.1]
      rfl
    · rw [Option.map_eq_some_iff] at h
      obtain ⟨⟨name, r⟩, -, h⟩ := h
      rw [← (Prod.mk.inj h).1]
      split <;> rfl
  fun_induction listPieces t with
  | case1 t gap h => rfl
  | case2 t gap item rest h hc ih =>
    rw [List.filterMap_cons, List.filterMap_cons, hitem h]
    exact ih
  | case3 t gap item rest h hc => rw [List.filterMap_cons, List.filterMap_cons, hitem h]; rfl

/-- A step reads a call, a keyword that opens no list, or a keyword and the list behind it. -/
theorem read?_forms {seen : List Char} {t rest : List Cell} {ps : List Piece}
    (h : read? seen t = some (ps, rest)) :
    startsWord seen = true ∧
      ((∃ text c, t = text ++ rest ∧ IsCall text c rest ∧
          ps = [.call text c (isRequested seen rest)]) ∨
        call? t = none ∧ ((∃ keyword, ps = [.keyword keyword false]) ∨
          ∃ keyword list, t = keyword ++ list ∧
            ps = .keyword keyword true :: (listPieces list).1)) := by
  simp only [read?] at h
  split at h
  · cases h
  next hs =>
  refine ⟨by simpa using hs, ?_⟩
  split at h
  · next c r hc =>
    rw [Option.some.injEq, Prod.mk.injEq] at h
    obtain ⟨rfl, rfl⟩ := h
    obtain ⟨text, rfl, hcall⟩ := call?_eq_some_iff.1 hc
    exact Or.inl ⟨text, c, rfl, hcall, by rw [upTo_append]⟩
  · next hc =>
    rw [Option.map_eq_some_iff] at h
    obtain ⟨⟨opens, r⟩, hk, h⟩ := h
    have hsplit := (groupingKeyword?_leaves hk).upTo_append
    refine Or.inr ⟨hc, ?_⟩
    cases opens with
    | false => exact Or.inl ⟨upTo t r, (Prod.mk.inj h).1.symm⟩
    | true => exact Or.inr ⟨upTo t r, r, hsplit.symm, (Prod.mk.inj h).1.symm⟩

/-- A step reads a call, which asks for an aggregation or not, or it asks for none. -/
theorem read?_cases {seen : List Char} {t rest : List Cell} {ps : List Piece}
    (h : read? seen t = some (ps, rest)) :
    startsWord seen = true ∧
      ((∃ text c, t = text ++ rest ∧ IsCall text c rest ∧
          ps = [.call text c (isRequested seen rest)]) ∨
        call? t = none ∧ ps.filterMap Piece.requested? = []) := by
  obtain ⟨hs, hcall | ⟨hc, ⟨keyword, rfl⟩ | ⟨keyword, list, -, rfl⟩⟩⟩ := read?_forms h
  · exact ⟨hs, Or.inl hcall⟩
  · exact ⟨hs, Or.inr ⟨hc, rfl⟩⟩
  · exact ⟨hs, Or.inr ⟨hc, requested?_listPieces list⟩⟩

/-! ## The whole scan -/

/-- Whether a list holds, in the order of the text, the occurrences from a place on that ask for an
aggregation and that nothing read before runs into. -/
structure Reported (t : List Cell) (n : Nat) (os : List (Occurrence t)) : Prop where
  increasing : os.Pairwise fun a b => a.start < b.start ∧ a.stop ≤ b.start
  mem_iff : ∀ o, o ∈ os ↔ (o.Requested ∧ o.Free) ∧ n ≤ o.start

namespace Reported

variable {t : List Cell} {n m : Nat} {os : List (Occurrence t)}

theorem nil (t : List Cell) : Reported t t.length [] where
  increasing := List.Pairwise.nil
  mem_iff o := ⟨fun hm => (List.not_mem_nil hm).elim,
    fun ho => absurd ho.2 (Nat.not_le.2 o.start_lt_length)⟩

/-- The list serves an earlier place too, if no occurrence to report lies between. -/
theorem of_le (h : Reported t m os) (hle : n ≤ m)
    (hno : ∀ o : Occurrence t, o.Requested → o.Free → n ≤ o.start → m ≤ o.start) :
    Reported t n os where
  increasing := h.increasing
  mem_iff o := by
    rw [h.mem_iff]
    constructor
    · rintro ⟨ho, hm⟩
      exact ⟨ho, Nat.le_trans hle hm⟩
    · rintro ⟨ho, hn⟩
      exact ⟨ho, hno o ho.1 ho.2 hn⟩

/-- An occurrence to report goes before those from its end on. -/
theorem cons {o₀ : Occurrence t} (h : Reported t o₀.stop os) (hreq : o₀.Requested)
    (hfree : o₀.Free)
    (hstop : ∀ o : Occurrence t, o.Free → o₀.start < o.start → o₀.stop ≤ o.start) :
    Reported t o₀.start (o₀ :: os) where
  increasing := by
    refine List.pairwise_cons.2 ⟨fun o ho => ?_, h.increasing⟩
    have hle := ((h.mem_iff o).1 ho).2
    exact ⟨Nat.lt_of_lt_of_le o₀.start_lt_stop hle, hle⟩
  mem_iff o := by
    rw [List.mem_cons, h.mem_iff]
    constructor
    · rintro (rfl | ⟨ho, hle⟩)
      · exact ⟨⟨hreq, hfree⟩, Nat.le_refl _⟩
      · exact ⟨ho, Nat.le_trans (Nat.le_of_lt o₀.start_lt_stop) hle⟩
    · rintro ⟨ho, hle⟩
      rcases Nat.eq_or_lt_of_le hle with heq | hlt
      · exact Or.inl (Occurrence.eq_of_start_eq heq.symm)
      · exact Or.inr ⟨ho, hstop o ho.2 hlt⟩

end Reported

section

variable {t before rest after : List Cell} {ps : List Piece}

/-- At the place of an occurrence, the scan has its text before it. -/
theorem Reaches.at_start (h : Reaches t before rest) {o : Occurrence t}
    (ho : o.start = before.length) : o.before = before ∧ o.text ++ o.after = rest :=
  List.append_inj (o.split.trans h.append.symm) ho

/-- An occurrence does not stand where the scan passes on. -/
theorem Reaches.start_ne_of_none {x : Cell} (h : Reaches t before (x :: rest))
    (hr : read? (faces before).reverse (x :: rest) = none) (o : Occurrence t) :
    o.start ≠ before.length := by
  intro ho
  obtain ⟨hb, hrest⟩ := h.at_start ho
  have := o.read?
  rw [hb, hrest, hr] at this
  cases this

/-- What is reported behind a stretch that the scan reads, and what the stretch asks for, is what is
reported from its place on. -/
theorem Reported.read {os : List (Occurrence t)}
    (hos : Reported t (before.length + (texts ps).length) os) (h : Reaches t before rest)
    (hr : read? (faces before).reverse rest = some (ps, after)) :
    ∃ os', Reported t before.length os' ∧
      ps.filterMap Piece.requested? ++ os.map Occurrence.call = os'.map Occurrence.call := by
  have hfree (o : Occurrence t) (ho : o.Free) (hlt : before.length < o.start) :
      before.length + (texts ps).length ≤ o.start := ho before ps ⟨rest, after, h, hr⟩ hlt
  have hskip (hno : ∀ o : Occurrence t, o.Requested → o.start ≠ before.length) :
      Reported t before.length os :=
    hos.of_le (Nat.le_add_right _ _) fun o hreq ho hle =>
      hfree o ho (Nat.lt_of_le_of_ne hle (hno o hreq).symm)
  obtain ⟨hs, ⟨text, c, hsplit, hcall, rfl⟩ | ⟨hnone, hps⟩⟩ := read?_cases hr
  · -- The call that is read is the only occurrence at this place.
    let o₀ : Occurrence t := ⟨before, text, after, c, hsplit ▸ h.append, hs, hcall⟩
    have hlen : before.length + (texts [.call text c (isRequested (faces before).reverse
        after)]).length = o₀.stop := by simp [Occurrence.stop, o₀]
    rw [hlen] at hos hfree
    by_cases hreq : isRequested (faces before).reverse after = true
    · refine ⟨o₀ :: os, hos.cons (o₀.isRequested_iff.1 hreq) ?_ hfree, ?_⟩
      · exact fun b qs hb hlt => hb.length_le h hlt
      · rw [hreq]
        rfl
    · refine ⟨os, hskip fun o ho hstart => hreq ?_, ?_⟩
      · have heq : o = o₀ := Occurrence.eq_of_start_eq hstart
        exact o₀.isRequested_iff.2 (heq ▸ ho)
      · rw [Bool.eq_false_iff.2 hreq]
        rfl
  · refine ⟨os, hskip fun o _ hstart => ?_, by rw [hps, List.nil_append]⟩
    rw [← (h.at_start hstart).2, call?_eq_some_iff.2 ⟨o.text, rfl, o.isCall⟩] at hnone
    cases hnone

/-- From each place on, the calls that the scan asks for are those of the occurrences to report. -/
theorem exists_reported (h : Reaches t before rest) :
    ∃ os : List (Occurrence t), Reported t before.length os ∧
      (piecesFrom (faces before).reverse rest).filterMap Piece.requested? =
        os.map Occurrence.call := by
  induction hn : rest.length using Nat.strong_induction_on generalizing before rest with
  | _ n ih =>
    subst hn
    cases rest with
    | nil =>
      have hb : before = t := by
        rw [← h.append, List.append_nil]
      refine ⟨[], hb ▸ Reported.nil before, ?_⟩
      rw [piecesFrom]
      rfl
    | cons x u =>
      rcases hr : read? (faces before).reverse (x :: u) with _ | ⟨ps, after⟩
      · obtain ⟨os, hos, hcalls⟩ := ih u.length (Nat.lt_succ_self _) (h.pass hr) rfl
        rw [List.length_append, List.length_singleton] at hos
        rw [faces_append, List.reverse_append] at hcalls
        refine ⟨os, hos.of_le (Nat.le_succ _) fun o _ _ hle => ?_, ?_⟩
        · exact Nat.lt_of_le_of_ne hle (h.start_ne_of_none hr o).symm
        · rw [piecesFrom_of_none hr, List.filterMap_cons, ← hcalls]
          rfl
      · obtain ⟨os, hos, hcalls⟩ := ih after.length (read?_leaves hr).length_lt (h.read hr) rfl
        rw [List.length_append] at hos
        rw [faces_append, List.reverse_append] at hcalls
        rw [piecesFrom_of_read? hr, List.filterMap_append, hcalls]
        exact hos.read h hr

end

end QueryStats.Query

namespace QueryStats

open Query

/-- The text that the scan of a query goes over: the query without its comments, masked. -/
def scanned (query : String) : List Cell := mask (stripComments query).toList

theorem faces_scanned (query : String) :
    String.ofList (faces (scanned query)) = blankQuoted (stripComments query) := rfl

/-- What an occurrence asks for is read from the characters of the query. -/
theorem Query.Occurrence.aggregation_call {s : List Char} (hs : CommentFree s)
    (o : Occurrence (mask s)) : o.call.aggregation = o.aggregation := by
  have hsuffix : o.text ++ o.after <:+ mask s := ⟨o.before, o.split⟩
  obtain ⟨⟨w, hname, -⟩, -⟩ :=
    call?_captures hs hsuffix (call?_eq_some_iff.2 ⟨o.text, rfl, o.isCall⟩)
  have hn : sourceText o.call.name = String.ofList (faces o.call.name) := by
    rw [sourceText, hname, sources_shown, faces_shown]
  have hunquote (label : List Cell) :
      unquote (sourceText label) = String.ofList (unquoteChars (sources label)) := by
    rw [unquote, sourceText, String.toList_ofList]
  simp only [Call.aggregation, aggregation, hn, labelName, hunquote]

/-- The aggregations of a query are, in the order of the text, those that its calls ask for: of the
calls that ask for one, just those that nothing read from an earlier place on runs into. -/
theorem ofQuery_aggregations (query : String) :
    ∃ os : List (Occurrence (scanned query)),
      os.Pairwise (fun a b => a.start < b.start ∧ a.stop ≤ b.start) ∧
      (∀ o, o ∈ os ↔ o.Requested ∧ o.Free) ∧
      (Clause.ofQuery query).aggregations = os.map Occurrence.aggregation := by
  have hs : CommentFree (stripComments query).toList := by
    rw [stripComments, String.toList_ofList]
    exact commentFree_stripFrom query.toList
  obtain ⟨os, hos, hcalls⟩ := exists_reported (Reaches.start (t := scanned query))
  refine ⟨os, hos.increasing, fun o => by simp [hos.mem_iff], ?_⟩
  have hclause : Clause.ofQuery query = Clause.ofPieces (piecesFrom [] (scanned query)) := by
    rw [scanned, stripComments, String.toList_ofList]
    rfl
  have ha : os.map Occurrence.aggregation = (os.map Occurrence.call).map Call.aggregation := by
    rw [List.map_map]
    exact List.map_congr_left fun o _ => (o.aggregation_call hs).symm
  rw [hclause, ha, ← hcalls]
  rfl

end QueryStats
