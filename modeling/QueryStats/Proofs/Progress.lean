import QueryStats.Proofs.ByOffsets

/-!
# Progress

The scan of a query visits offsets, and at each of them it either finds nothing more or goes on at a
greater one (`search?_progress`).  Behind a keyword that groups it takes one run of fields after
another, each to the right of the one before (`acceptRun?_progress`).  So both loops end, and what
they find is no more than the text has bytes.
-/

namespace QueryStats.Query

open Text

/-! ## The states of the two loops -/

/-- The offsets that the scan of a query visits: the first one, and those where it goes on. -/
inductive Visits (query : String) : Nat → Prop where
  | start : Visits query 0
  | next {pos next : Nat} {m : Match} {found : Clause} (visits : Visits query pos)
    (within : pos < width (scanned query))
    (search : search? (scanned query) pos = some (some m))
    (accept : accept? (stripComments query) (scanned query) m = some (found, next)) :
    Visits query next

/-- The ranges of the runs that are taken behind the keywords that group. -/
inductive Takes (query : String) : Range → Prop where
  | first {pos : Nat} {m : GroupMatch} {r : Range} (visits : Visits query pos)
    (search : search? (scanned query) pos = some (some (.grouping m)))
    (opens : opensList? (scanned query) m = some true) (fields : m.fields = some r) :
    Takes query r
  | next {r next : Range} {m : BucketMatch} {found : Clause} (takes : Takes query r)
    (accept : acceptRun? (stripComments query) (scanned query) r = some (found, some m))
    (fields : m.fields = some next) : Takes query next

/-- Whether the scan comes to an end from an offset on, and what clause it has found by then. -/
inductive ScanEnds (query : String) : Nat → Clause → Prop where
  | done {pos : Nat} (h : width (scanned query) ≤ pos) : ScanEnds query pos (.ofAggregations [])
  | none {pos : Nat} (search : search? (scanned query) pos = some none) :
    ScanEnds query pos (.ofAggregations [])
  | next {pos next : Nat} {m : Match} {found more : Clause}
    (within : pos < width (scanned query))
    (search : search? (scanned query) pos = some (some m))
    (accept : accept? (stripComments query) (scanned query) m = some (found, next))
    (ends : ScanEnds query next more) : ScanEnds query pos (found.andThen more)

/-- Whether the runs come to an end from one at a range on. -/
inductive RunsEnd (query : String) : Range → Prop where
  | none {r : Range} {found : Clause}
    (accept : acceptRun? (stripComments query) (scanned query) r = some (found, none)) :
    RunsEnd query r
  | last {r : Range} {m : BucketMatch} {found : Clause}
    (accept : acceptRun? (stripComments query) (scanned query) r = some (found, some m))
    (fields : m.fields = none) : RunsEnd query r
  | next {r next : Range} {m : BucketMatch} {found : Clause}
    (accept : acceptRun? (stripComments query) (scanned query) r = some (found, some m))
    (fields : m.fields = some next) (ends : RunsEnd query next) : RunsEnd query r

/-! ## The scan -/

section

variable {query : String} {t : List Cell}

/-- One turn of the scan ends it, or goes on at a place to the right. -/
theorem search?_progress (ht : t <:+ scanned query) :
    search? (scanned query) (place (scanned query) t) = some none ∨
    ∃ m found u, search? (scanned query) (place (scanned query) t) = some (some m) ∧
      accept? (stripComments query) (scanned query) m = some (found, place (scanned query) u) ∧
      Leaves t u := by
  rcases search?_cases ht with ⟨hnone, -⟩ | ⟨m, found, u, hm, haccept, hu, -⟩
  · exact Or.inl hnone
  · exact Or.inr ⟨m, found, u, hm, haccept, hu⟩

/-- The scan visits places of the text only. -/
theorem Visits.exists_place {pos : Nat} (h : Visits query pos) :
    ∃ t, t <:+ scanned query ∧ pos = place (scanned query) t := by
  induction h with
  | start => exact ⟨scanned query, List.suffix_rfl, place_self.symm⟩
  | next _ _ search accept ih =>
    obtain ⟨t, ht, rfl⟩ := ih
    rcases search?_progress ht with hnone | ⟨m', found', u, hm, haccept, hu⟩
    · rw [hnone] at search
      cases search
    · rw [hm, Option.some.injEq, Option.some.injEq] at search
      subst search
      rw [haccept, Option.some.injEq, Prod.mk.injEq] at accept
      exact ⟨u, hu.suffix.trans ht, accept.2.symm⟩

theorem scanEnds_place (ht : t <:+ scanned query) :
    ScanEnds query (place (scanned query) t) (clauseAt (scanned query) t) := by
  induction hn : t.length using Nat.strong_induction_on generalizing t with
  | _ n ih =>
  subst hn
  rcases search?_cases ht with ⟨hnone, hclause⟩ | ⟨m, found, u, hm, haccept, hu, hclause⟩
  · exact hclause ▸ .none hnone
  · have hlt : place (scanned query) t < width (scanned query) :=
      (place_lt_place ht hu).trans_le (place_le _ u)
    exact hclause ▸ .next hlt hm haccept (ih u.length hu.length_lt (hu.suffix.trans ht) rfl)

/-! ## Grouping keywords -/

/-- What a match that is a grouping keyword tells, and where it is accepted to go on. -/
theorem exists_of_search?_grouping {m : GroupMatch} (ht : t <:+ scanned query)
    (h : search? (scanned query) (place (scanned query) t) = some (some (.grouping m))) :
    ∃ u rest opens, Leaves u rest ∧ u <:+ scanned query ∧
      Outside (stripComments query).toList rest ∧ m.Holds (stripComments query).toList rest ∧
      m.keyword = ⟨place (scanned query) u, place (scanned query) rest⟩ ∧
      opensList? (scanned query) m = some opens ∧
      acceptGrouping? (stripComments query) (scanned query) m =
        some (if opens then ((walkList rest).1, place (scanned query) (walkList rest).2)
          else (.ofAggregations [], place (scanned query) rest)) := by
  obtain ⟨u, hu, hm⟩ := exists_of_search? ht h
  have hsuffix : u <:+ scanned query := hu.trans ht
  obtain ⟨opens, rest, hk, hopens, hkeyword, hholds⟩ := exists_of_matchAt?_grouping hsuffix hm
  have hlist : opensList? (scanned query) m = some opens := hopens ▸ opensList?_eq hsuffix hkeyword
  have hout := outside_of_groupingKeyword? hsuffix hk
  exact ⟨u, rest, opens, groupingKeyword?_leaves hk, hsuffix, hout, hholds, hkeyword, hlist,
    acceptGrouping?_eq hsuffix hk hlist (by rw [hkeyword]) hholds⟩

/-- The scan goes on behind the start of a grouping keyword, and behind the match if it groups. -/
theorem grouping_progress {m : GroupMatch} {found : Clause} {next : Nat} (ht : t <:+ scanned query)
    (h : search? (scanned query) (place (scanned query) t) = some (some (.grouping m)))
    (haccept : accept? (stripComments query) (scanned query) (.grouping m) = some (found, next)) :
    m.keyword.start < next ∧ (opensList? (scanned query) m = some true → m.stop ≤ next) := by
  obtain ⟨u, rest, opens, hleaves, hu, hout, hholds, hkeyword, hopens, hgrouping⟩ :=
    exists_of_search?_grouping ht h
  obtain ⟨hlist, hstop⟩ := hholds.walkList hout
  rw [accept?, hgrouping, Option.some.injEq] at haccept
  rw [hkeyword, hopens]
  cases opens with
  | false =>
    obtain ⟨-, rfl⟩ := Prod.mk.inj haccept
    exact ⟨place_lt_place hu hleaves, by simp⟩
  | true =>
    obtain ⟨-, rfl⟩ := Prod.mk.inj haccept
    exact ⟨place_lt_place hu (hleaves.trans_suffix hlist), fun _ => hstop⟩

/-! ## Runs -/

/-- Whether a range is that of a run of fields outside quoted runs. -/
def IsRun (query : String) (r : Range) : Prop :=
  ∃ t rest, Outside (stripComments query).toList t ∧ firstRun? t = some rest ∧
    r = ⟨place (scanned query) t, place (scanned query) rest⟩

/-- Behind a run nothing more is taken, or a run to the right of it. -/
theorem acceptRun?_progress {r : Range} (h : IsRun query r) :
    ∃ found item, acceptRun? (stripComments query) (scanned query) r = some (found, item) ∧
      ∀ m ∈ item, ∀ next ∈ m.fields, IsRun query next ∧ r.stop < next.start ∧
        next.start ≤ next.stop ∧ next.stop ≤ width (scanned query) := by
  obtain ⟨t, rest, hout, hrun, rfl⟩ := h
  have hsplit : upTo t rest ++ rest = t := (firstRun?_leaves hrun).upTo_append
  have hbegins : Begins rest := begins_of_firstRun? hout hrun
  generalize upTo t rest = run at hsplit
  subst hsplit
  have hrest : rest <:+ scanned query := (List.suffix_append run rest).trans hout.suffix
  rcases hb : runBucket? run rest with _ | ⟨b, behind⟩
  · exact ⟨_, _, acceptRun?_of_none hout hbegins hb, by simp⟩
  · obtain ⟨m, hm, haccept⟩ := exists_acceptRun? hout hbegins hb
    refine ⟨_, _, haccept, ?_⟩
    rintro m' hm' next hnext
    obtain rfl := Option.some.inj hm'
    rw [hm.fields] at hnext
    obtain ⟨u, hu, rfl⟩ := Option.map_eq_some_iff.1 hnext
    have hleaves : Leaves rest behind := runBucket?_leaves_rest hout hrun hb
    have hbehind : behind <:+ scanned query := hleaves.suffix.trans hrest
    have hrun' : firstRun? behind = some u := (nextRun?_eq_some_iff.1 hu).2
    refine ⟨⟨behind, u, outside_of_runBucket? hout hb, hrun', rfl⟩, ?_, ?_, ?_⟩
    · exact place_lt_place hrest hleaves
    · exact (place_lt_place hbehind (nextRun?_leaves hu)).le
    · exact place_le _ _

theorem GroupMatch.Holds.isRun {m : GroupMatch} {rest : List Cell} {r : Range}
    (hm : m.Holds (stripComments query).toList rest)
    (hout : Outside (stripComments query).toList rest) (h : m.fields = some r) :
    IsRun query r := by
  cases hm with
  | @bucket b behind item hb hitem _ hfields _ =>
    rw [hfields, hitem.fields] at h
    obtain ⟨next, hnext, rfl⟩ := Option.map_eq_some_iff.1 h
    have hfirst : skipBlanks rest <:+ mask (stripComments query).toList :=
      (skipBlanks_suffix rest).trans hout.suffix
    exact ⟨behind, next, outside_of_bucketing? hfirst hb, (nextRun?_eq_some_iff.1 hnext).2, rfl⟩
  | run hb _ hfields _ =>
    rw [hfields] at h
    obtain ⟨next, hnext, rfl⟩ := Option.map_eq_some_iff.1 h
    exact ⟨rest, next, hout, hnext, rfl⟩

theorem Takes.isRun {r : Range} (h : Takes query r) : IsRun query r := by
  induction h with
  | first visits search _ fields =>
    obtain ⟨t, ht, rfl⟩ := visits.exists_place
    obtain ⟨u, rest, opens, -, -, hout, hholds, -⟩ := exists_of_search?_grouping ht search
    exact hholds.isRun hout fields
  | next _ accept fields ih =>
    obtain ⟨found, item, haccept, hnext⟩ := acceptRun?_progress ih
    rw [haccept, Option.some.injEq, Prod.mk.injEq] at accept
    exact (hnext _ accept.2 _ fields).1

theorem runsEnd_of_isRun {r : Range} (h : IsRun query r) : RunsEnd query r := by
  induction hn : width (scanned query) - r.stop using Nat.strong_induction_on generalizing r with
  | _ n ih =>
  subst hn
  obtain ⟨found, item, haccept, hnext⟩ := acceptRun?_progress h
  cases item with
  | none => exact .none haccept
  | some m =>
    rcases hfields : m.fields with _ | next
    · exact .last haccept hfields
    · obtain ⟨hrun, hlt, hle, hwidth⟩ := hnext m rfl next hfields
      exact .next haccept hfields (ih _ (by omega) hrun rfl)

end

/-! ## How much is found -/

theorem width_scanned (query : String) :
    width (scanned query) = (blankQuoted (stripComments query)).utf8ByteSize := by
  rw [← faces_scanned, String.utf8ByteSize_ofList]
  rfl

/-- Calls and fields at places in a row between two numbers of cells are no more than the cells
between. -/
theorem length_calls_add_length_fields_le {t : List Cell} {pl : List (Place t)} {n m : Nat}
    (hle : n ≤ m) (hwithin : ∀ p ∈ pl, n ≤ p.start ∧ p.stop ≤ m)
    (hordered : pl.Pairwise fun a b => a.stop ≤ b.start) :
    n + (pl.filterMap Place.call?).length + (pl.filterMap Place.field?).length ≤ m := by
  induction pl generalizing n with
  | nil => simpa using hle
  | cons p pl ih =>
    obtain ⟨hafter, hrest⟩ := List.pairwise_cons.1 hordered
    obtain ⟨⟨hstart, hstop⟩, hpl⟩ := List.forall_mem_cons.1 hwithin
    have hmore := ih hstop (fun q hq => ⟨hafter q hq, (hpl q hq).2⟩) hrest
    cases p with
    | field f =>
      have hlt := f.start_lt_stop
      change n ≤ f.start at hstart
      change f.stop + _ + _ ≤ m at hmore
      show n + (pl.filterMap Place.call?).length + ((pl.filterMap Place.field?).length + 1) ≤ m
      omega
    | bucket b =>
      have hlt : b.start ≤ b.stop := Nat.le_add_right _ _
      change n ≤ b.start at hstart
      change b.stop + _ + _ ≤ m at hmore
      show n + (pl.filterMap Place.call?).length + (pl.filterMap Place.field?).length ≤ m
      omega
    | call o requested free =>
      have hlt := o.start_lt_stop
      change n ≤ o.start at hstart
      change o.stop + _ + _ ≤ m at hmore
      show n + ((pl.filterMap Place.call?).length + 1) + (pl.filterMap Place.field?).length ≤ m
      omega

end QueryStats.Query

namespace QueryStats

open Query

/-- A query asks for no more aggregations and fields than its masked text has bytes. -/
theorem length_ofQuery_le (query : String) :
    (Clause.ofQuery query).aggregations.length + (Clause.ofQuery query).grouping.fields.length ≤
      (blankQuoted (stripComments query)).utf8ByteSize := by
  obtain ⟨pl, hpl, hclause⟩ := exists_placed_scanned query
  have hcells := length_calls_add_length_fields_le hpl.le hpl.within hpl.ordered
  have hwidth := length_le_width (scanned query)
  rw [width_scanned] at hwidth
  rw [hclause, List.length_map, List.length_map]
  omega

/-- The scan of a query always goes on and ends.  At an offset that it visits it stops, or goes on
at a greater one that is not past the end; behind a grouping keyword it goes on after the start of
the keyword, and not before the end of the match if the keyword groups; each run of fields taken
behind such a keyword lies to the right of the one before.  So both loops end, and what is found is
no more than the masked text has bytes. -/
theorem scan_progresses (query : String) :
    (∀ pos, Visits query pos →
      pos ≤ (blankQuoted (stripComments query)).utf8ByteSize ∧
      (search? (scanned query) pos = some none ∨
        ∃ m found next, search? (scanned query) pos = some (some m) ∧
          accept? (stripComments query) (scanned query) m = some (found, next) ∧
          pos < next ∧ next ≤ (blankQuoted (stripComments query)).utf8ByteSize)) ∧
    (∀ pos m found next, Visits query pos →
      search? (scanned query) pos = some (some (.grouping m)) →
      accept? (stripComments query) (scanned query) (.grouping m) = some (found, next) →
      m.keyword.start < next ∧ (opensList? (scanned query) m = some true → m.stop ≤ next)) ∧
    (∀ r, Takes query r →
      ∃ found item, acceptRun? (stripComments query) (scanned query) r = some (found, item) ∧
        ∀ m ∈ item, ∀ next ∈ m.fields, r.stop < next.start ∧ next.start ≤ next.stop ∧
          next.stop ≤ (blankQuoted (stripComments query)).utf8ByteSize) ∧
    ScanEnds query 0 (Clause.ofQuery query) ∧ (∀ r, Takes query r → RunsEnd query r) ∧
    (Clause.ofQuery query).aggregations.length + (Clause.ofQuery query).grouping.fields.length ≤
      (blankQuoted (stripComments query)).utf8ByteSize := by
  rw [← width_scanned]
  refine ⟨?_, ?_, ?_, ?_, fun r hr => runsEnd_of_isRun hr.isRun, ?_⟩
  · intro pos hpos
    obtain ⟨t, ht, rfl⟩ := hpos.exists_place
    refine ⟨place_le _ t, ?_⟩
    rcases search?_progress ht with hnone | ⟨m, found, u, hm, haccept, hu⟩
    · exact Or.inl hnone
    · exact Or.inr ⟨m, found, _, hm, haccept, place_lt_place ht hu, place_le _ u⟩
  · intro pos m found next hpos hm haccept
    obtain ⟨t, ht, rfl⟩ := hpos.exists_place
    exact grouping_progress ht hm haccept
  · intro r hr
    obtain ⟨found, item, haccept, hnext⟩ := acceptRun?_progress hr.isRun
    exact ⟨found, item, haccept, fun m hm next hn => (hnext m hm next hn).2⟩
  · have hstart : place (scanned query) (scanned query) = 0 := place_self
    rw [← clauseAt_scanned, ← hstart]
    exact scanEnds_place List.suffix_rfl
  · rw [width_scanned]
    exact length_ofQuery_le query

end QueryStats
