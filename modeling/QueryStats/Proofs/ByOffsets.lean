import QueryStats.Proofs.Matches
import QueryStats.Proofs.Passing

/-!
# Reading by offsets

The clause of a query can be read by byte offsets.  The masked text is searched from an offset on;
the parts of a match are cut out of it, or read back from the query, at their ranges; and the search
goes on at an offset behind the match.  The reading fails where a slice does not exist, where a part
does not read back as it showed under the mask, and where a turn does not move on.  It fails for no
query, and it finds the clause of the query.
-/

namespace QueryStats.Query

open Text

/-! ## Calls and time buckets -/

section

variable (source : String) (scan : List Cell)

/-- The name that an alias spells, if there is one. -/
def readLabel? : Option Range → Option String
  | none => some ""
  | some r => (readBack? source scan r).map unquote

/-- What a call asks for. -/
def acceptCall? (m : CallMatch) : Option Clause := do
  let argument ← readBack? source scan m.argument
  let (_, rest) ← cut? scan m.whole.stop
  let (before, _) ← cut? scan m.whole.start
  if isRequested (faces before).reverse rest then
    let label ← readLabel? source scan m.label
    let name ← cells? scan m.name
    return .ofAggregations
      [⟨String.ofList (faces name), String.ofList (trim argument.toList), "", label⟩]
  else
    -- A call that is passed over is read back only to be reported.
    let _ ← readBack? source scan m.whole
    return .ofAggregations []

/-- The time bucket at its ranges. -/
def acceptBucket? (m : BucketMatch) : Option Bucket := do
  let label ← readLabel? source scan m.label
  let field ← readBack? source scan m.field
  let amount ← cells? scan m.amount
  let unit ← cells? scan m.unit
  return ⟨fieldName field, String.ofList (faces amount), String.ofList (faces unit), "", label⟩

/-! ## Lists -/

/-- The ranges of parts that stand one byte apart, from an offset on. -/
def rangesFrom (pos : Nat) : List (List Cell) → List Range
  | [] => []
  | part :: parts => ⟨pos, pos + width part⟩ :: rangesFrom (pos + width part + 1) parts

/-- The text of the query at a range, cut at the commas that the masked text shows there. -/
def splitFields? (r : Range) : Option (List String) := do
  let part ← cells? scan r
  (rangesFrom r.start (part.splitOnP (·.face = ','))).mapM (readBack? source scan)

/-- The name that a field as written spells, unless it is empty. -/
def spelled? (field : String) : Option String :=
  if fieldName field = "" then none else some (fieldName field)

/-- Where the fields of a run end, and where the call stands that the run may name. -/
def runParts (r : Range) (run rest : List Cell) : Nat × Option Nat :=
  if namesCall run rest then
    match lastComma? run with
    | some (fields, _) => (r.start + width fields, some (r.start + width fields + 1))
    | none => (r.start, some r.start)
  else (r.stop, none)

/-- What a run of a list asks for, and the time bucket that it names. -/
def acceptRun? (r : Range) : Option (Clause × Option BucketMatch) := do
  let run ← cells? scan r
  let (_, rest) ← cut? scan r.stop
  let (stop, call) := runParts r run rest
  let fields ← splitFields? source scan ⟨r.start, stop⟩
  let found := Clause.ofGrouping ⟨fields.filterMap spelled?, none⟩
  match call with
  | none => return (found, none)
  | some pos =>
    let (_, t) ← cut? scan pos
    let pos := offsetOf pos t (skipBlanks t)
    let (_, t) ← cut? scan pos
    match bucketMatch? pos t with
    | none => return (found, none)
    | some m =>
      let bucket ← acceptBucket? source scan m
      return (found.andThen (.ofGrouping ⟨[], some bucket⟩), some m)

/-- What a run and the runs behind it ask for, and the offset where to go on, given where to go on
behind what was read before. -/
def acceptRuns? (r : Range) (resume : Nat) : Option (Clause × Nat) :=
  match acceptRun? source scan r with
  | none => none
  | some (found, none) => some (found, resume)
  | some (found, some m) =>
    match m.fields with
    | none => some (found, max resume m.stop)
    | some next =>
      if _h : r.stop < next.start ∧ next.start ≤ next.stop ∧ next.stop ≤ width scan then
        (acceptRuns? next (max resume m.stop)).map fun (more, resume) =>
          (found.andThen more, resume)
      else none
termination_by width scan - r.stop
decreasing_by omega

/-- Whether a grouping keyword groups. -/
def opensList? (m : GroupMatch) : Option Bool :=
  (cut? scan m.keyword.start).map fun (before, _) => !m.bare || groupsBare (faces before).reverse

/-- What a grouping keyword asks for, and the offset where to go on. -/
def acceptGrouping? (m : GroupMatch) : Option (Clause × Nat) := do
  if ← opensList? scan m then
    let bucket ← m.bucket.mapM (acceptBucket? source scan)
    let found := Clause.ofGrouping ⟨[], bucket⟩
    match m.fields with
    | none => return (found, m.stop)
    | some r =>
      let (more, resume) ← acceptRuns? source scan r m.stop
      return (found.andThen more, resume)
  else return (.ofAggregations [], m.keyword.stop)

/-! ## The scan -/

/-- The first match from an offset on. -/
def search? (pos : Nat) : Option (Option Match) :=
  (cut? scan pos).map fun (before, t) => firstMatch? (faces before).reverse pos t

/-- What a match asks for, and the offset where to go on. -/
def accept? : Match → Option (Clause × Nat)
  | .call m => (acceptCall? source scan m).map (·, m.whole.stop)
  | .grouping m => acceptGrouping? source scan m

/-- The clause of what is read from an offset on. -/
def readFrom? (pos : Nat) : Option Clause :=
  if pos < width scan then
    match search? scan pos with
    | none => none
    | some none => some (.ofAggregations [])
    | some (some m) =>
      match accept? source scan m with
      | none => none
      | some (found, next) =>
        if _h : pos < next ∧ next ≤ width scan then (readFrom? next).map found.andThen else none
  else some (.ofAggregations [])
termination_by width scan - pos
decreasing_by omega

end

/-- The clause of a query, read by offsets. -/
def readByOffsets? (query : String) : Option Clause :=
  readFrom? (stripComments query) (scanned query) 0

/-! ## What is read at a match -/

section

variable {source : String}

theorem readLabel?_eq {r : Option Range} {label : Option (List Cell)}
    (h : Option.Rel (Found source.toList) r label) :
    readLabel? source (mask source.toList) r = some (labelName label) := by
  cases h with
  | none => rfl
  | some h =>
    rw [readLabel?, h.readBack?, Option.map_some, unquote, sourceText, String.toList_ofList]
    rfl

/-- What shows in a run of bare characters is what it stands for. -/
theorem ofList_faces_of_shown {text : List Cell} (h : ∃ w, text = shown w) :
    String.ofList (faces text) = sourceText text := by
  obtain ⟨w, rfl⟩ := h
  rw [faces_shown, sourceText, sources_shown]

theorem acceptBucket?_eq {m : BucketMatch} {b : Bucketing} {t rest : List Cell}
    (ht : t <:+ mask source.toList) (h : bucketing? t = some (b, rest))
    (hm : m.Holds source.toList b rest) :
    acceptBucket? source (mask source.toList) m = some b.bucket := by
  obtain ⟨⟨amount, hamount, -⟩, ⟨unit, hunit, -⟩, -⟩ := bucketing?_captures ht h
  have hfield : fieldName (sourceText b.field) =
      String.ofList (fieldNameChars (sources b.field)) := by
    rw [fieldName, sourceText, String.toList_ofList]
  simp only [acceptBucket?, readLabel?_eq hm.label, hm.field.readBack?, hm.amount.cells?,
    hm.unit.cells?, Option.bind_eq_bind, Option.bind_some, hfield,
    ofList_faces_of_shown ⟨amount, hamount⟩, ofList_faces_of_shown ⟨unit, hunit⟩]
  rfl

end

/-- The faces before a rest of masked text, backwards. -/
def facesBefore (scan t : List Cell) : List Char := (faces (upTo scan t)).reverse

section

variable {source : String} {t rest : List Cell}

/-- A call is accepted just as it is read. -/
theorem exists_acceptCall? (ht : t <:+ mask source.toList) {c : Call}
    (h : call? t = some (c, rest)) :
    ∃ m, callMatch? (place (mask source.toList) t) t = some m ∧
      m.whole = ⟨place (mask source.toList) t, place (mask source.toList) rest⟩ ∧
      acceptCall? source (mask source.toList) m = some (.ofPieces
        [.call (upTo t rest) c (isRequested (facesBefore (mask source.toList) t) rest)]) := by
  obtain ⟨m, hm, hwhole, hholds⟩ := exists_callMatch? ht h
  have hrest : rest <:+ mask source.toList := (call?_leaves h).suffix.trans ht
  refine ⟨m, hm, hwhole, ?_⟩
  simp only [acceptCall?, hholds.argument.readBack?, hholds.whole.readBack?, hholds.name.cells?,
    readLabel?_eq hholds.label, Option.bind_eq_bind, Option.bind_some]
  rw [hwhole, cut?_place hrest, cut?_place ht]
  simp only [Option.bind_some]
  split
  · next hr =>
    rw [facesBefore, hr, ofList_faces_of_shown hholds.exists_shown, sourceText, sourceText,
      String.toList_ofList]
    rfl
  · next hr =>
    rw [facesBefore, eq_false_of_ne_true hr]
    rfl

/-- What stands before a comma is found, and what stands behind it is one byte further on. -/
theorem found_before_comma {before behind : List Cell} {x : Cell}
    (hout : Outside source.toList (before ++ x :: behind)) (hx : x.face = ',') :
    let pos := place (mask source.toList) (before ++ x :: behind)
    Found source.toList ⟨pos, pos + width before⟩ before ∧
      pos + width before + 1 = place (mask source.toList) behind := by
  have hsuffix : x :: behind <:+ mask source.toList :=
    (List.suffix_append _ _).trans hout.suffix
  have hbegins : Begins (x :: behind) :=
    (outside_cons hsuffix (by rw [hx]; decide) (by rw [hx]; rfl)).begins
  refine ⟨found_append hout hbegins, ?_⟩
  rw [← place_append hout.suffix, place_cons hsuffix, hx]
  rfl

/-- The parts between the commas of a part that is read back are read back too. -/
theorem mapM_readBack?_rangesFrom {part after : List Cell}
    (hout : Outside source.toList (part ++ after)) (hafter : Begins after) :
    (rangesFrom (place (mask source.toList) (part ++ after))
      (part.splitOnP (·.face = ','))).mapM (readBack? source (mask source.toList)) =
        some ((part.splitOnP (·.face = ',')).map sourceText) := by
  induction hn : part.length using Nat.strong_induction_on generalizing part with
  | _ n ih =>
  subst hn
  have hsplit : part = part.takeWhile (·.face != ',') ++ part.dropWhile (·.face != ',') :=
    List.takeWhile_append_dropWhile.symm
  have hcomma : ∀ x ∈ part.takeWhile (·.face != ','), ¬x.face = ',' := by
    intro x hx
    simpa using List.mem_takeWhile_imp hx
  have hlast := List.head?_dropWhile_not (·.face != ',') part
  generalize part.takeWhile (·.face != ',') = first at hsplit hcomma
  generalize part.dropWhile (·.face != ',') = others at hsplit hlast
  subst hsplit
  have hfirst : first.splitOnP (·.face = ',') = [first] :=
    List.splitOnP_eq_singleton fun x hx => by simpa using hcomma x hx
  cases others with
  | nil =>
    rw [List.append_nil] at *
    rw [hfirst, rangesFrom, rangesFrom, List.mapM_cons, (found_append hout hafter).readBack?]
    rfl
  | cons x others =>
    have hx : x.face = ',' := by simpa using hlast
    rw [List.append_assoc, List.cons_append] at *
    obtain ⟨hfound, hplace⟩ := found_before_comma hout hx
    have hothers := ih others.length (by simp; omega)
      (outside_comma_cons ((List.suffix_append _ _).trans hout.suffix) hx) rfl
    rw [List.splitOnP_append_cons _ _ (by simpa using hx), hfirst, List.singleton_append,
      rangesFrom, hplace, List.mapM_cons, hfound.readBack?, hothers]
    rfl

theorem spelled?_sourceText (text : List Cell) : spelled? (sourceText text) = groupField? text :=
  (groupField?_eq text).symm

theorem filterMap_spelled? (part : List Cell) :
    ((part.splitOnP (·.face = ',')).map sourceText).filterMap spelled? = runNames part := by
  have hspelled : spelled? ∘ sourceText = groupField? := by
    funext text
    rw [Function.comp_apply, spelled?_sourceText]
  rw [List.filterMap_map, hspelled, runNames]

theorem splitFields?_eq {r : Range} {part : List Cell} (h : Found source.toList r part) :
    splitFields? source (mask source.toList) r =
      some ((part.splitOnP (·.face = ',')).map sourceText) := by
  have hcells := h.cells?
  obtain ⟨after, hout, hafter, rfl⟩ := h
  rw [splitFields?, hcells]
  exact mapM_readBack?_rangesFrom hout hafter

/-! ## Runs -/

theorem exists_append_of_lastComma? {run before behind : List Cell}
    (h : lastComma? run = some (before, behind)) :
    ∃ x, x.face = ',' ∧ run = before ++ x :: behind := by
  rcases exists_lastComma run with hc | ⟨a, x, b, rfl, hx, hb⟩
  · rw [lastComma?_of_notMem hc] at h
    cases h
  · rw [lastComma?_append hx a hb] at h
    obtain ⟨rfl, rfl⟩ := Prod.mk.inj (Option.some.inj h)
    exact ⟨x, hx, rfl⟩

/-- The parts of a run are where its fields and the call that it names are. -/
theorem runParts_place {run : List Cell} (hout : Outside source.toList (run ++ rest))
    (hrest : Begins rest) :
    let scan := mask source.toList
    let parts := runParts ⟨place scan (run ++ rest), place scan rest⟩ run rest
    Found source.toList ⟨place scan (run ++ rest), parts.1⟩ (fieldPart run rest) ∧
      parts.2 = (callPart? run rest).map fun part => place scan (part ++ rest) := by
  intro scan parts
  rw [fieldPart, callPart?]
  by_cases hn : namesCall run rest = true
  · rw [if_pos hn, if_pos hn]
    rcases hl : lastComma? run with _ | ⟨before, behind⟩
    · have hparts : parts = (place scan (run ++ rest), some (place scan (run ++ rest))) := by
        show runParts _ run rest = _
        rw [runParts, if_pos hn, hl]
      rw [hparts]
      exact ⟨⟨run ++ rest, hout, hout.begins, rfl⟩, rfl⟩
    · have hparts : parts = (place scan (run ++ rest) + width before,
          some (place scan (run ++ rest) + width before + 1)) := by
        show runParts _ run rest = _
        rw [runParts, if_pos hn, hl]
      obtain ⟨x, hx, rfl⟩ := exists_append_of_lastComma? hl
      rw [hparts]
      rw [List.append_assoc, List.cons_append] at *
      obtain ⟨hfound, hplace⟩ := found_before_comma hout hx
      exact ⟨hfound, congrArg some hplace⟩
  · rw [if_neg hn, if_neg hn]
    have hparts : parts = (place scan rest, none) := by
      show runParts _ run rest = _
      rw [runParts, if_neg hn]
    rw [hparts]
    exact ⟨⟨rest, hout, hrest, rfl⟩, rfl⟩

/-- A run is accepted with its fields, and with the time bucket that stands at the call it names. -/
theorem acceptRun?_eq {run : List Cell} (hout : Outside source.toList (run ++ rest))
    (hrest : Begins rest) :
    let scan := mask source.toList
    let found := Clause.ofGrouping ⟨runNames (fieldPart run rest), none⟩
    acceptRun? source scan ⟨place scan (run ++ rest), place scan rest⟩ =
      match callPart? run rest with
      | none => some (found, none)
      | some part =>
        let t := skipBlanks (part ++ rest)
        match bucketMatch? (place scan t) t with
        | none => some (found, none)
        | some m => (acceptBucket? source scan m).map fun bucket =>
            (found.andThen (.ofGrouping ⟨[], some bucket⟩), some m) := by
  intro scan found
  obtain ⟨hfields, hcall⟩ := runParts_place hout hrest
  simp only [acceptRun?, cells?_place hout.suffix,
    cut?_place ((List.suffix_append run rest).trans hout.suffix), splitFields?_eq hfields,
    Option.bind_eq_bind, Option.bind_some, filterMap_spelled?, hcall, scan]
  rcases hpart : callPart? run rest with _ | part
  · rfl
  have hpart' : part ++ rest <:+ mask source.toList :=
    (callPart?_append_suffix hpart).trans hout.suffix
  have hfirst : skipBlanks (part ++ rest) <:+ mask source.toList :=
    (skipBlanks_suffix _).trans hpart'
  simp only [Option.map_some, cut?_place hpart', Option.bind_some,
    offsetOf_place hpart' (skipBlanks_suffix _), cut?_place hfirst]
  rcases bucketMatch? _ (skipBlanks (part ++ rest)) with _ | m
  · rfl
  · exact (Option.map_eq_bind ..).symm

theorem acceptRun?_of_none {run : List Cell} (hout : Outside source.toList (run ++ rest))
    (hrest : Begins rest) (h : runBucket? run rest = none) :
    acceptRun? source (mask source.toList)
        ⟨place (mask source.toList) (run ++ rest), place (mask source.toList) rest⟩ =
      some (.ofGrouping ⟨runNames (fieldPart run rest), none⟩, none) := by
  rw [acceptRun?_eq hout hrest]
  rcases hpart : callPart? run rest with _ | part
  · rfl
  have hnone : bucketing? (skipBlanks (part ++ rest)) = none := by
    rwa [runBucket?, hpart] at h
  simp only [bucketMatch?_of_none hnone]

theorem exists_acceptRun? {run behind : List Cell} {b : Bucketing}
    (hout : Outside source.toList (run ++ rest)) (hrest : Begins rest)
    (h : runBucket? run rest = some (b, behind)) :
    ∃ m : BucketMatch, m.Holds source.toList b behind ∧
      acceptRun? source (mask source.toList)
          ⟨place (mask source.toList) (run ++ rest), place (mask source.toList) rest⟩ =
        some ((Clause.ofGrouping ⟨runNames (fieldPart run rest), none⟩).andThen
          (.ofGrouping ⟨[], some b.bucket⟩), some m) := by
  obtain ⟨part, hpart, hb⟩ := Option.bind_eq_some_iff.1 h
  have hfirst : skipBlanks (part ++ rest) <:+ mask source.toList :=
    (skipBlanks_suffix _).trans ((callPart?_append_suffix hpart).trans hout.suffix)
  obtain ⟨m, hm, hholds⟩ := exists_bucketMatch? hfirst hb
  refine ⟨m, hholds, ?_⟩
  rw [acceptRun?_eq hout hrest]
  simp only [hpart, hm, acceptBucket?_eq hfirst hb hholds, Option.map_some]

/-- The runs of a list are accepted just as they are walked over. -/
theorem acceptRuns?_eq (hout : Outside source.toList t) (hrun : firstRun? t = some rest) :
    acceptRuns? source (mask source.toList)
        ⟨place (mask source.toList) t, place (mask source.toList) rest⟩
        (place (mask source.toList) rest) =
      some ((walk (upTo t rest) rest).1,
        place (mask source.toList) (walk (upTo t rest) rest).2) := by
  induction hn : t.length using Nat.strong_induction_on generalizing t rest with
  | _ n ih =>
  subst hn
  have hrest : Begins rest := begins_of_firstRun? hout hrun
  have hsplit : upTo t rest ++ rest = t := (firstRun?_leaves hrun).upTo_append
  generalize upTo t rest = run at hsplit
  subst hsplit
  rw [acceptRuns?]
  rcases hb : runBucket? run rest with _ | ⟨b, behind⟩
  · simp only [acceptRun?_of_none hout hrest hb, walk_of_none hb]
  · obtain ⟨m, hm, haccept⟩ := exists_acceptRun? hout hrest hb
    simp only [haccept, walk_of_some hb]
    have hsuffix : rest <:+ mask source.toList := (List.suffix_append _ _).trans hout.suffix
    have hleaves : Leaves rest behind := runBucket?_leaves_rest hout hrun hb
    have hbehind : behind <:+ mask source.toList := hleaves.suffix.trans hsuffix
    have hlt : place (mask source.toList) rest < place (mask source.toList) behind :=
      place_lt_place hsuffix hleaves
    rw [walkBehind]
    rcases hnext : nextRun? behind with _ | next
    · have hfields : m.fields = none := by rw [hm.fields, hnext, Option.map_none]
      have hstop : m.stop = place (mask source.toList) behind := by
        rw [hm.stop, hnext, Option.getD_none]
      simp only [hfields, hstop, Clause.andThen_ofAggregations_nil, max_eq_right hlt.le]
    · have hle : place (mask source.toList) behind ≤ place (mask source.toList) next :=
        (place_lt_place hbehind (nextRun?_leaves hnext)).le
      have hfields : m.fields =
          some ⟨place (mask source.toList) behind, place (mask source.toList) next⟩ := by
        rw [hm.fields, hnext, Option.map_some]
      have hstop : m.stop = place (mask source.toList) next := by
        rw [hm.stop, hnext, Option.getD_some]
      have hmore := ih behind.length (runBucket?_leaves hb).length_lt
        (outside_of_runBucket? hout hb) (nextRun?_eq_some_iff.1 hnext).2 rfl
      simp only [hfields, hstop, max_eq_right (hlt.le.trans hle), dif_pos (And.intro hlt
        (And.intro hle (place_le _ _))), hmore, Option.map_some]

/-! ## Grouping keywords -/

theorem opensList?_eq {scan : List Cell} {m : GroupMatch} {stop : Nat} (ht : t <:+ scan)
    (h : m.keyword = ⟨place scan t, stop⟩) :
    opensList? scan m = some (!m.bare || groupsBare (facesBefore scan t)) := by
  rw [opensList?, h, cut?_place ht]
  rfl

/-- A grouping keyword is accepted just as its list is walked over. -/
theorem acceptGrouping?_eq {seen : List Char} {opens : Bool} {m : GroupMatch}
    (ht : t <:+ mask source.toList) (h : groupingKeyword? seen t = some (opens, rest))
    (hopens : opensList? (mask source.toList) m = some opens)
    (hkeyword : m.keyword.stop = place (mask source.toList) rest)
    (hm : m.Holds source.toList rest) :
    acceptGrouping? source (mask source.toList) m =
      some (if opens then ((walkList rest).1, place (mask source.toList) (walkList rest).2)
        else (.ofAggregations [], place (mask source.toList) rest)) := by
  have hout : Outside source.toList rest := outside_of_groupingKeyword? ht h
  rw [acceptGrouping?, hopens]
  cases opens with
  | false =>
    simp only [Option.bind_eq_bind, Option.bind_some, hkeyword]
    rfl
  | true =>
    simp only [Option.bind_eq_bind, Option.bind_some, if_pos]
    cases hm with
    | bucket hb hitem hbucket hfields hstop =>
      have hfirst : skipBlanks rest <:+ mask source.toList :=
        (skipBlanks_suffix rest).trans hout.suffix
      rw [hitem.fields] at hfields
      rw [hitem.stop] at hstop
      simp only [hbucket, Option.mapM_some, acceptBucket?_eq hfirst hb hitem, walkList, hb, hfields,
        hstop]
      rw [walkBehind]
      rcases hnext : nextRun? _ with _ | next
      · simp only [Clause.andThen_ofAggregations_nil]
        rfl
      · have hruns := acceptRuns?_eq (outside_of_bucketing? hfirst hb)
          (nextRun?_eq_some_iff.1 hnext).2
        simp only [Option.map_some, Option.getD_some, hruns]
        rfl
    | run hb hbucket hfields hstop =>
      simp only [hbucket, walkList, hb, hfields, hstop]
      rcases hnext : firstRun? rest with _ | next
      · rfl
      · have hruns := acceptRuns?_eq hout hnext
        simp only [Option.map_some, Option.getD_some, hruns]
        exact congrArg (fun c => some (c, _)) (Clause.ofAggregations_nil_andThen _)

/-- What a list leaves stands behind the match that found its keyword. -/
theorem GroupMatch.Holds.walkList {s : List Char} {m : GroupMatch} (hm : m.Holds s rest)
    (hout : Outside s rest) :
    (walkList rest).2 <:+ rest ∧ m.stop ≤ place (mask s) (walkList rest).2 := by
  cases hm with
  | @bucket b behind item hb hitem _ _ hstop =>
    have hfirst : skipBlanks rest <:+ mask s := (skipBlanks_suffix rest).trans hout.suffix
    have hbehind : behind <:+ rest := (bucketing?_leaves hb).suffix.trans (skipBlanks_suffix rest)
    rw [hstop, hitem.stop]
    simp only [Query.walkList, hb, walkBehind]
    rcases hnext : nextRun? behind with _ | next
    · exact ⟨hbehind, le_rfl⟩
    · have hwalk := walk_suffix_of_firstRun? (outside_of_bucketing? hfirst hb)
        (nextRun?_eq_some_iff.1 hnext).2
      have hrun : next <:+ rest := (nextRun?_leaves hnext).suffix.trans hbehind
      exact ⟨hwalk.trans hrun, place_le_place (hrun.trans hout.suffix) hwalk⟩
  | run hb _ _ hstop =>
    rw [hstop]
    simp only [Query.walkList, hb]
    rcases hnext : firstRun? rest with _ | next
    · exact ⟨List.suffix_rfl, le_rfl⟩
    · have hwalk := walk_suffix_of_firstRun? hout hnext
      have hrun : next <:+ rest := (firstRun?_leaves hnext).suffix
      exact ⟨hwalk.trans hrun, place_le_place (hrun.trans hout.suffix) hwalk⟩

/-! ## The scan -/

/-- The clause of what the scan reads from a rest of masked text on. -/
def clauseAt (scan t : List Cell) : Clause := clauseFrom (facesBefore scan t) t

theorem facesBefore_append {scan u : List Cell} (h : u ++ t <:+ scan) :
    facesBefore scan t = (faces u).reverse ++ facesBefore scan (u ++ t) := by
  obtain ⟨front, rfl⟩ := h
  rw [facesBefore, facesBefore, upTo_append, ← List.append_assoc, upTo_append, faces_append,
    List.reverse_append]

theorem clauseAt_of_read? {scan : List Cell} {ps : List Piece} (ht : t <:+ scan)
    (h : read? (facesBefore scan t) t = some (ps, rest)) :
    clauseAt scan t = (Clause.ofPieces ps).andThen (clauseAt scan rest) := by
  obtain ⟨-, rfl⟩ := read?_append h
  rw [clauseAt, clauseFrom_of_read? h, clauseAt, ← facesBefore_append ht]

theorem clauseAt_of_none {scan : List Cell} {x : Cell} (ht : x :: t <:+ scan)
    (h : read? (facesBefore scan (x :: t)) (x :: t) = none) :
    clauseAt scan (x :: t) = clauseAt scan t := by
  rw [clauseAt, clauseFrom_of_none h, clauseAt, facesBefore_append (u := [x]) ht]
  rfl

/-- White space and commas add nothing. -/
theorem clauseAt_gap {scan gap : List Cell} (hgap : ∀ x ∈ gap, x.isGap = true)
    (ht : gap ++ t <:+ scan) : clauseAt scan (gap ++ t) = clauseAt scan t := by
  have hdull : ∀ x ∈ gap, isNameStart x.face = false := by
    intro x hx
    apply isNameStart_eq_false
    rw [← Bool.not_eq_true]
    intro ha
    have hfield := isGap_of_isFieldChar (isFieldChar_of_isAliasChar ha)
    rw [hgap x hx] at hfield
    cases hfield
  rw [clauseAt, clauseFrom_append_of_dull hdull, clauseAt, facesBefore_append ht]

/-- Where the scan reads something, there is a match, and what is accepted of it is what is read;
the scan goes on behind it. -/
theorem exists_accept? {ps : List Piece} (ht : t <:+ mask source.toList)
    (h : read? (facesBefore (mask source.toList) t) t = some (ps, rest)) :
    ∃ m found u,
      matchAt? (facesBefore (mask source.toList) t) (place (mask source.toList) t) t = some m ∧
      accept? source (mask source.toList) m = some (found, place (mask source.toList) u) ∧
      Leaves t u ∧
      clauseAt (mask source.toList) t = found.andThen (clauseAt (mask source.toList) u) := by
  have hclause := clauseAt_of_read? ht h
  simp only [read?] at h
  split at h
  · cases h
  next hstart =>
  rw [matchAt?, if_neg hstart]
  split at h
  · next c r hc =>
    obtain ⟨rfl, rfl⟩ := Prod.mk.inj (Option.some.inj h)
    obtain ⟨m, hm, hwhole, haccept⟩ := exists_acceptCall? ht hc
    refine ⟨.call m, _, r, by rw [hm]; rfl, ?_, call?_leaves hc, hclause⟩
    rw [accept?, haccept, hwhole]
    rfl
  · next hc =>
    obtain ⟨⟨opens, r⟩, hk, hread⟩ := Option.map_eq_some_iff.1 h
    obtain ⟨m, hm, hopens, hkeyword, hholds⟩ := exists_groupMatch? ht hk
    have hr : r <:+ mask source.toList := (groupingKeyword?_leaves hk).suffix.trans ht
    have hlist : opensList? (mask source.toList) m = some opens :=
      hopens ▸ opensList?_eq ht hkeyword
    have haccept := acceptGrouping?_eq ht hk hlist (by rw [hkeyword]) hholds
    have hmatch : ((callMatch? (place (mask source.toList) t) t).map Match.call).or
        ((groupMatch? (place (mask source.toList) t) t).map Match.grouping) =
          some (.grouping m) := by
      rw [callMatch?_of_none hc, hm]
      rfl
    cases opens with
    | false =>
      obtain ⟨rfl, rfl⟩ := Prod.mk.inj hread
      exact ⟨_, _, r, hmatch, haccept, groupingKeyword?_leaves hk, hclause⟩
    | true =>
      obtain ⟨rfl, rfl⟩ := Prod.mk.inj hread
      have hout : Outside source.toList r := outside_of_groupingKeyword? ht hk
      obtain ⟨hfound, gap, hgap, hrest⟩ := covers_walkList hout
      have hsuffix := (hholds.walkList hout).1
      refine ⟨_, _, (walkList r).2, hmatch, haccept,
        (groupingKeyword?_leaves hk).trans_suffix hsuffix, ?_⟩
      rw [hclause, hfound, hrest, clauseAt_gap hgap (hrest ▸ hsuffix.trans hr)]
      rfl

/-- A search finds nothing where nothing is read any more; otherwise what is accepted of the match
comes first of what is read, and the scan goes on behind it. -/
theorem search?_cases (ht : t <:+ mask source.toList) :
    (search? (mask source.toList) (place (mask source.toList) t) = some none ∧
      clauseAt (mask source.toList) t = .ofAggregations []) ∨
    ∃ m found u,
      search? (mask source.toList) (place (mask source.toList) t) = some (some m) ∧
      accept? source (mask source.toList) m = some (found, place (mask source.toList) u) ∧
      Leaves t u ∧
      clauseAt (mask source.toList) t = found.andThen (clauseAt (mask source.toList) u) := by
  simp only [search?, cut?_place ht, Option.map_some, Option.some.injEq]
  change (firstMatch? (facesBefore _ t) _ t = none ∧ _) ∨
    ∃ m found u, firstMatch? (facesBefore _ t) _ t = some m ∧ _
  induction t with
  | nil => exact Or.inl ⟨rfl, clauseFrom_nil _⟩
  | cons x t ih =>
    rw [firstMatch?]
    rcases hread : read? (facesBefore (mask source.toList) (x :: t)) (x :: t) with _ | ⟨ps, rest⟩
    · -- Nothing is read at the cell, and the search goes on behind it.
      have hbefore : facesBefore (mask source.toList) t =
          x.face :: facesBefore (mask source.toList) (x :: t) := facesBefore_append (u := [x]) ht
      rw [matchAt?_of_none hread, Option.none_or, ← hbefore, ← place_cons ht,
        clauseAt_of_none ht hread]
      rcases ih ((List.suffix_cons x t).trans ht) with hnone | ⟨m, found, u, hm, haccept, hu, hc⟩
      · exact Or.inl hnone
      · exact Or.inr ⟨m, found, u, hm, haccept, hu.of_suffix (List.suffix_cons x t), hc⟩
    · obtain ⟨m, found, u, hm, haccept, hu, hc⟩ := exists_accept? ht hread
      exact Or.inr ⟨m, found, u, by rw [hm, Option.some_or], haccept, hu, hc⟩

/-- What a search finds stands at a place of the text. -/
theorem exists_of_search? {m : Match} (ht : t <:+ mask source.toList)
    (h : search? (mask source.toList) (place (mask source.toList) t) = some (some m)) :
    ∃ u, u <:+ t ∧
      matchAt? (facesBefore (mask source.toList) u) (place (mask source.toList) u) u = some m := by
  simp only [search?, cut?_place ht, Option.map_some, Option.some.injEq] at h
  change firstMatch? (facesBefore _ t) _ t = some m at h
  induction t with
  | nil => cases h
  | cons x t ih =>
    rw [firstMatch?, Option.or_eq_some_iff] at h
    rcases h with h | ⟨-, h⟩
    · exact ⟨x :: t, List.suffix_rfl, h⟩
    · have hbefore : facesBefore (mask source.toList) t =
          x.face :: facesBefore (mask source.toList) (x :: t) := facesBefore_append (u := [x]) ht
      rw [← hbefore, ← place_cons ht] at h
      obtain ⟨u, hu, hm⟩ := ih ((List.suffix_cons x t).trans ht) h
      exact ⟨u, hu.trans (List.suffix_cons x t), hm⟩

/-- Reading from an offset on finds what the scan reads there. -/
theorem readFrom?_eq (ht : t <:+ mask source.toList) :
    readFrom? source (mask source.toList) (place (mask source.toList) t) =
      some (clauseAt (mask source.toList) t) := by
  induction hn : t.length using Nat.strong_induction_on generalizing t with
  | _ n ih =>
  subst hn
  rw [readFrom?]
  split
  · rcases search?_cases ht with ⟨hnone, hclause⟩ | ⟨m, found, u, hm, haccept, hu, hclause⟩
    · simp only [hnone, hclause]
    · have hmore := ih u.length hu.length_lt (hu.suffix.trans ht) rfl
      simp only [hm, haccept, dif_pos (And.intro (place_lt_place ht hu) (place_le _ u)), hmore,
        Option.map_some, hclause]
  · next hend =>
    have hnil : t = [] := by
      by_contra hne
      have := place_add_width ht
      have := width_pos hne
      omega
    rw [hnil, clauseAt, clauseFrom_nil]

end

end QueryStats.Query

namespace QueryStats

open Query

/-- From its start on, the scan of a query reads the clause of the query. -/
theorem clauseAt_scanned (query : String) :
    clauseAt (scanned query) (scanned query) = Clause.ofQuery query := by
  have hbefore : facesBefore (scanned query) (scanned query) = [] := by
    rw [facesBefore, upTo, Nat.sub_self]
    rfl
  rw [clauseAt, hbefore, scanned, stripComments, String.toList_ofList]
  rfl

/-- Reading a query by offsets takes no bad slice and reads back exactly what it found.  It does not
fail; what it reads back at a range stands between two places of the query, and shows under the mask
what the masked text shows at the range; and what it cuts out of the masked text stands between two
places of that. -/
theorem readByOffsets?_reads_back (query : String) :
    readByOffsets? query = some (Clause.ofQuery query) ∧
      (∀ r text, readBack? (stripComments query) (scanned query) r = some text →
        ReadsBack (stripComments query) r text) ∧
      (∀ pos before t, cut? (scanned query) pos = some (before, t) →
        String.Pos.Raw.IsValid (blankQuoted (stripComments query)) ⟨pos⟩) ∧
      ∀ r part, cells? (scanned query) r = some part → r.start ≤ r.stop ∧
        String.Pos.Raw.IsValid (blankQuoted (stripComments query)) ⟨r.start⟩ ∧
        String.Pos.Raw.IsValid (blankQuoted (stripComments query)) ⟨r.stop⟩ := by
  have hvalid {front rest : List Cell} (h : scanned query = front ++ rest) :
      String.Pos.Raw.IsValid (blankQuoted (stripComments query)) ⟨width front⟩ := by
    refine Text.isValid_iff.2 ⟨faces rest, faces front, ?_, rfl⟩
    rw [← faces_scanned, String.toList_ofList, h, faces_append]
  refine ⟨?_, fun r text h => readsBack_of_readBack? h, ?_, ?_⟩
  · have hstart : place (scanned query) (scanned query) = 0 := place_self
    rw [readByOffsets?, ← hstart, ← clauseAt_scanned]
    exact readFrom?_eq List.suffix_rfl
  · intro pos before t h
    obtain ⟨hsplit, rfl⟩ := cut?_eq_some_iff.1 h
    exact hvalid hsplit
  · intro r part h
    obtain ⟨front, rest, hsplit, hstart, hstop⟩ := cells?_eq_some_iff.1 h
    refine ⟨by omega, hstart ▸ hvalid hsplit, ?_⟩
    rw [← hstop, ← hstart, ← width_append]
    exact hvalid (by rw [hsplit, List.append_assoc])

end QueryStats
