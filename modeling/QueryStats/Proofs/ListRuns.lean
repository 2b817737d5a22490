import QueryStats.Proofs.Runs

/-!
# Lists, run by run

A list of what to group by can be read in runs.  A run ends before a time bucket, at whose name it
stops like at any other field; whether it names a call there is told by what follows it, and the
time bucket that stands there may be followed by the next run (`walk`).  Reading in runs finds what
reading item by item does, and leaves the same rest but for white space and commas
(`covers_walkList`).
-/

namespace QueryStats.Query

open Text

/-! ## Reading in runs -/

theorem callPart?_suffix {run rest part : List Cell} (h : callPart? run rest = some part) :
    part <:+ run := by
  rw [callPart?, Option.ite_none_right_eq_some, Option.some.injEq] at h
  obtain ⟨-, rfl⟩ := h
  rcases exists_lastComma run with hc | ⟨a, x, b, rfl, hx, hb⟩
  · rw [lastComma?_of_notMem hc]
    exact List.suffix_rfl
  · rw [lastComma?_append hx a hb]
    exact ⟨a ++ [x], by simp⟩

/-- The time bucket where a run names a call, and the text behind it. -/
def runBucket? (run rest : List Cell) : Option (Bucketing × List Cell) :=
  (callPart? run rest).bind fun part => bucketing? (skipBlanks (part ++ rest))

theorem runBucket?_leaves {run rest behind : List Cell} {b : Bucketing}
    (h : runBucket? run rest = some (b, behind)) : Leaves (run ++ rest) behind := by
  obtain ⟨part, hpart, hb⟩ := Option.bind_eq_some_iff.1 h
  obtain ⟨front, rfl⟩ := callPart?_suffix hpart
  refine (bucketing?_leaves hb).of_suffix ((skipBlanks_suffix _).trans ?_)
  rw [List.append_assoc]
  exact List.suffix_append _ _

/-- What the runs of a list ask for, from one run on, and the text behind what they ask for; the run
is given with the text after it. -/
def walk (run rest : List Cell) : Clause × List Cell :=
  let found := Clause.ofGrouping ⟨runNames (fieldPart run rest), none⟩
  match _h : runBucket? run rest with
  | none => (found, rest)
  | some (b, behind) =>
    let found := found.andThen (.ofGrouping ⟨[], some b.bucket⟩)
    match _h' : nextRun? behind with
    | none => (found, behind)
    | some next =>
      (found.andThen (walk (upTo behind next) next).1, (walk (upTo behind next) next).2)
termination_by (run ++ rest).length
decreasing_by
  all_goals
    rw [(nextRun?_leaves _h').upTo_append]
    exact (runBucket?_leaves _h).length_lt

section

variable {run rest behind : List Cell} {b : Bucketing}

theorem walk_of_none (h : runBucket? run rest = none) :
    walk run rest = (.ofGrouping ⟨runNames (fieldPart run rest), none⟩, rest) := by
  rw [walk]
  split
  · rfl
  · next h' =>
    rw [h] at h'
    cases h'

/-- What the runs of a list behind a time bucket ask for: nothing if no run follows. -/
def walkBehind (behind : List Cell) : Clause × List Cell :=
  match nextRun? behind with
  | none => (.ofAggregations [], behind)
  | some next => walk (upTo behind next) next

theorem walk_of_some (h : runBucket? run rest = some (b, behind)) :
    walk run rest =
      (((Clause.ofGrouping ⟨runNames (fieldPart run rest), none⟩).andThen
        (.ofGrouping ⟨[], some b.bucket⟩)).andThen (walkBehind behind).1,
        (walkBehind behind).2) := by
  rw [walk]
  split
  · next h' =>
    rw [h] at h'
    cases h'
  · next b' behind' h' =>
    rw [h, Option.some.injEq, Prod.mk.injEq] at h'
    obtain ⟨rfl, rfl⟩ := h'
    rw [walkBehind]
    split
    · next hn => rw [hn, Clause.andThen_ofAggregations_nil]
    · next next hn => rw [hn]

end

/-- What the runs behind a grouping keyword ask for: the first item may be a time bucket, before
which no comma stands. -/
def walkList (t : List Cell) : Clause × List Cell :=
  match bucketing? (skipBlanks t) with
  | some (b, behind) =>
    ((Clause.ofGrouping ⟨[], some b.bucket⟩).andThen (walkBehind behind).1, (walkBehind behind).2)
  | none =>
    match firstRun? t with
    | some rest => walk (upTo t rest) rest
    | none => (.ofAggregations [], t)

/-- The end of a run that has more than white space behind one of its commas decides what it holds
behind that comma. -/
theorem namesCall_append_comma {x : Cell} (a run rest : List Cell)
    (hrun : ∃ y ∈ run, y.isBlank = false) :
    namesCall (a ++ x :: run) rest = namesCall run rest := by
  rcases exists_last (·.isBlank = false) run with h | ⟨b, y, c, rfl, hy, hc⟩
  · obtain ⟨y, hy, hb⟩ := hrun
    exact absurd hb (h y hy)
  · have hlast (front : List Cell) : (front ++ y :: c).rdropWhile Cell.isBlank = front ++ [y] := by
      have hblank : ∀ z ∈ c.reverse, z.isBlank = true := fun z hz => by
        simpa using hc z (List.mem_reverse.1 hz)
      rw [List.rdropWhile, List.reverse_append, List.reverse_cons, List.append_assoc,
        List.dropWhile_append_of_pos hblank]
      simp [hy]
    have hsplit : a ++ x :: (b ++ y :: c) = (a ++ x :: b) ++ y :: c := by simp
    rw [namesCall, hsplit, hlast, namesCall, hlast, List.getLast?_concat, List.getLast?_concat]

/-- What stands before a comma of a run, and what the rest of the run asks for. -/
theorem walk_append_comma {x : Cell} (hx : x.face = ',') (a run rest : List Cell)
    (hrun : ∃ y ∈ run, y.isBlank = false) :
    walk (a ++ x :: run) rest =
      ((Clause.ofGrouping ⟨runNames a, none⟩).andThen (walk run rest).1, (walk run rest).2) := by
  have hn := namesCall_append_comma (x := x) a run rest hrun
  have hfields : runNames (fieldPart (a ++ x :: run) rest) =
      runNames a ++ runNames (fieldPart run rest) := by
    rw [fieldPart, hn, fieldPart]
    split
    · rw [lastComma?_append_comma hx]
      rcases lastComma? run with _ | ⟨b, c⟩
      · simp
      · exact runNames_append_comma hx a b
    · exact runNames_append_comma hx a run
  have hcall : callPart? (a ++ x :: run) rest = callPart? run rest := by
    rw [callPart?, hn, callPart?, lastComma?_append_comma hx]
    rcases lastComma? run with _ | ⟨b, c⟩ <;> rfl
  have hbucket : runBucket? (a ++ x :: run) rest = runBucket? run rest := by
    rw [runBucket?, hcall, runBucket?]
  have hnames : Clause.ofGrouping ⟨runNames a ++ runNames (fieldPart run rest), none⟩ =
      (Clause.ofGrouping ⟨runNames a, none⟩).andThen
        (.ofGrouping ⟨runNames (fieldPart run rest), none⟩) := by
    simp [Clause.andThen, Clause.ofGrouping]
  rcases hb : runBucket? run rest with _ | ⟨b, behind⟩
  · rw [walk_of_none hb, walk_of_none (hbucket.trans hb), hfields, hnames]
  · rw [walk_of_some hb, walk_of_some (hbucket.trans hb), hfields, hnames]
    simp only [Clause.andThen_assoc]

/-! ## Items and runs -/

/-- Whether a reading of a list finds what reading item by item does, and leaves the same rest but
for white space and commas before it. -/
def Covers (t : List Cell) (w : Clause × List Cell) : Prop :=
  w.1 = Clause.ofPieces (listPieces t).1 ∧
    ∃ gap, (∀ x ∈ gap, x.isGap = true) ∧ w.2 = gap ++ (listPieces t).2

section

variable {t u name rest : List Cell} {w : Clause × List Cell}

/-- A time bucket begins like a bare field. -/
theorem isFieldChar_of_bucketing? {b : Bucketing} (h : bucketing? t = some (b, rest)) :
    ∃ x u, t = x :: u ∧ isFieldChar x.face = true := by
  simp only [bucketing?, Option.bind_eq_bind, Option.bind_eq_some_iff] at h
  obtain ⟨t₁, h₁, -⟩ := h
  obtain ⟨word, rfl, hw⟩ := dropKeyword?_append h₁
  have hl := isAliasChar_of_fold hw (by decide)
  cases word with
  | nil => cases hw
  | cons x word =>
    exact ⟨x, word ++ t₁, rfl, isFieldChar_of_isAliasChar (hl x List.mem_cons_self)⟩

theorem field?_ne_none_of_bucketing? {b : Bucketing} (h : bucketing? t = some (b, rest)) :
    field? t ≠ none := by
  obtain ⟨x, u, rfl, hx⟩ := isFieldChar_of_bucketing? h
  intro hf
  rw [field?, name?, Option.or_eq_none_iff, Option.or_eq_none_iff, run?, List.takeWhile_cons,
    if_pos hx] at hf
  cases hf.2.2

theorem item?_of_field?_none (h : field? t = none) : item? t = none := by
  have hb : bucketing? t = none := by
    rcases hb : bucketing? t with _ | ⟨b, rest⟩
    · rfl
    · exact absurd h (field?_ne_none_of_bucketing? hb)
  rw [item?, hb, h]
  rfl

theorem covers_of_none (h : item? (t.dropWhile Cell.isGap) = none) (gap : List Cell)
    (hg : ∀ x ∈ gap, x.isGap = true) :
    Covers t (.ofAggregations [], gap ++ t.dropWhile Cell.isGap) := by
  rw [Covers, listPieces_of_none h]
  exact ⟨rfl, gap, hg, rfl⟩

/-- Where no field is behind the white space and the commas, they are all of the list. -/
theorem covers_of_gaps (h : field? (t.dropWhile Cell.isGap) = none) :
    Covers t (.ofAggregations [], t) := by
  have := covers_of_none (item?_of_field?_none h) (t.takeWhile Cell.isGap)
    fun x hx => List.mem_takeWhile_imp hx
  rwa [List.takeWhile_append_dropWhile] at this

theorem covers_of_some {p : Piece} (h : item? (t.dropWhile Cell.isGap) = some (p, rest))
    (hc : commaFollows rest = true) (hw : Covers rest w) :
    Covers t ((Clause.ofPieces [p]).andThen w.1, w.2) := by
  rw [Covers, listPieces_of_some h, if_pos hc]
  refine ⟨?_, hw.2⟩
  have happend := Clause.ofPieces_append [.gap (t.takeWhile Cell.isGap), p] (listPieces rest).1
  rw [hw.1]
  exact happend.symm

theorem covers_of_last {p : Piece} (h : item? (t.dropWhile Cell.isGap) = some (p, rest))
    (hc : commaFollows rest = false) : Covers t (.ofPieces [p], rest) := by
  rw [Covers, listPieces_of_some h, hc]
  exact ⟨rfl, [], by simp, rfl⟩

/-- The white space and the commas before the first item of a list do not count. -/
theorem Covers.congr (h : t.dropWhile Cell.isGap = u.dropWhile Cell.isGap) (hw : Covers u w) :
    Covers t w := by
  have hsame : Clause.ofPieces (listPieces u).1 = Clause.ofPieces (listPieces t).1 ∧
      (listPieces u).2 = (listPieces t).2 := by
    rcases hi : item? (u.dropWhile Cell.isGap) with _ | ⟨p, rest⟩
    · have hi' := h ▸ hi
      rw [listPieces_of_none hi, listPieces_of_none hi', h]
      exact ⟨rfl, rfl⟩
    · have hi' := h ▸ hi
      rw [listPieces_of_some hi, listPieces_of_some hi']
      by_cases hc : commaFollows rest = true
      · rw [if_pos hc, if_pos hc]
        exact ⟨rfl, rfl⟩
      · rw [if_neg hc, if_neg hc]
        exact ⟨rfl, rfl⟩
  rwa [Covers, ← hsame.1, ← hsame.2]

/-! ## Items of runs -/

theorem ofPieces_field (name : List Cell) :
    Clause.ofPieces [.field name] = .ofGrouping ⟨(groupField? name).toList, none⟩ := by
  show (⟨[], [name].filterMap groupField?, none⟩ : Clause) = _
  rw [List.filterMap_cons]
  cases groupField? name <;> rfl

/-- A run that ends in a comma holds fields only. -/
theorem walk_of_comma {x : Cell} (hx : x.face = ',') (run rest : List Cell) :
    walk (run ++ [x]) rest = (.ofGrouping ⟨runNames (run ++ [x]), none⟩, rest) := by
  have hblank : ¬x.isBlank = true := fun hb => face_ne_comma_of_isBlank hb hx
  have hn : namesCall (run ++ [x]) rest = false := by
    rw [namesCall, List.rdropWhile_concat_neg _ _ _ hblank, List.getLast?_concat]
    simp [hx]
  have hb : runBucket? (run ++ [x]) rest = none := by
    rw [runBucket?, callPart?, hn]
    rfl
  rw [walk_of_none hb, fieldPart, hn]
  rfl

/-- A run that ends in a field holds fields only where no parenthesis opens behind it. -/
theorem walk_of_not_opensParenthesis (hp : opensParenthesis rest = false) (run : List Cell) :
    walk run rest = (.ofGrouping ⟨runNames run, none⟩, rest) := by
  have hn : namesCall run rest = false := by rw [namesCall, hp, Bool.and_false]
  have hb : runBucket? run rest = none := by
    rw [runBucket?, callPart?, hn]
    rfl
  rw [walk_of_none hb, fieldPart, hn]
  rfl

/-- A run of one field before a parenthesis holds no field; what it names is the field. -/
theorem run_of_opensParenthesis {gap : List Cell} (hgap : IsPlainGap gap)
    (hcomma : ∀ x ∈ name, x.face ≠ ',') (hend : ∃ front x, name = front ++ [x] ∧ x.isGap = false)
    (hs : Stops isBlank (name ++ rest)) (hp : opensParenthesis rest = true) :
    runNames (fieldPart (gap ++ name) rest) = [] ∧
      runBucket? (gap ++ name) rest = bucketing? (name ++ rest) := by
  obtain ⟨front, x, hlast, hx⟩ := hend
  rw [Cell.isGap, Bool.or_eq_false_iff, decide_eq_false_iff_not] at hx
  have hn : namesCall (gap ++ name) rest = true := by
    have hblank : ¬x.isBlank = true := by simp [hx.1]
    rw [namesCall, hp, hlast, ← List.append_assoc, List.rdropWhile_concat_neg _ _ _ hblank,
      List.getLast?_concat]
    simp [hx.2]
  have hskip {g : List Cell} (hg : ∀ y ∈ g, y.isGap = true) (hc : ∀ y ∈ g, y.face ≠ ',') :
      skipBlanks (g ++ name ++ rest) = name ++ rest := by
    rw [List.append_assoc]
    refine IsBlanks.skipBlanks (fun y hy => ?_) hs
    have := hg y hy
    rw [Cell.isGap, Bool.or_eq_true, decide_eq_true_eq] at this
    exact this.resolve_right (hc y hy)
  rcases exists_lastComma gap with hc | ⟨a, y, b, rfl, hy, hb⟩
  · have hnone : lastComma? (gap ++ name) = none :=
      lastComma?_of_notMem (List.forall_mem_append.2 ⟨hc, hcomma⟩)
    rw [fieldPart, runBucket?, callPart?, hn, hnone]
    refine ⟨runNames_nil, ?_⟩
    show bucketing? (skipBlanks (gap ++ name ++ rest)) = _
    rw [hskip (fun y hy => (hgap y hy).1) hc]
  · obtain ⟨ha, hyb⟩ := hgap.of_append
    have hsome : lastComma? (a ++ y :: b ++ name) = some (a, b ++ name) := by
      rw [List.append_assoc, List.cons_append]
      exact lastComma?_append hy a (List.forall_mem_append.2 ⟨hb, hcomma⟩)
    rw [fieldPart, runBucket?, callPart?, hn, hsome]
    refine ⟨runNames_gap ha, ?_⟩
    show bucketing? (skipBlanks (b ++ name ++ rest)) = _
    rw [hskip (fun z hz => (hyb z (List.mem_cons_of_mem y hz)).1) hb]

theorem walkBehind_of_not_commaFollows (h : commaFollows t = false) :
    walkBehind t = (.ofAggregations [], t) := by
  rw [walkBehind, nextRun?, nextField?, h]
  rfl

/-- Where a time bucket is the first item of a list, the runs behind it are read next. -/
theorem covers_of_bucketing? {b : Bucketing} {behind : List Cell}
    (h : bucketing? (t.dropWhile Cell.isGap) = some (b, behind))
    (hw : commaFollows behind = true → Covers behind (walkBehind behind)) :
    Covers t ((Clause.ofGrouping ⟨[], some b.bucket⟩).andThen (walkBehind behind).1,
      (walkBehind behind).2) := by
  have hi : item? (t.dropWhile Cell.isGap) =
      some (.bucketing (upTo (t.dropWhile Cell.isGap) behind) b, behind) := by
    rw [item?, h]
  by_cases hc : commaFollows behind = true
  · exact covers_of_some hi hc (hw hc)
  · rw [Bool.not_eq_true] at hc
    rw [walkBehind_of_not_commaFollows hc, Clause.andThen_ofAggregations_nil]
    exact covers_of_last hi hc

/-! ## The first field of a list -/

theorem Outside.isPlainGap_takeWhile {s : List Char} (ht : Outside s t) :
    IsPlainGap (t.takeWhile Cell.isGap) := by
  rw [← List.takeWhile_append_dropWhile (p := Cell.isGap) (l := t)] at ht
  exact ht.isPlainGap fun x hx => List.mem_takeWhile_imp hx

theorem eq_append_of_field? (hf : field? (t.dropWhile Cell.isGap) = some (name, rest)) :
    t = t.takeWhile Cell.isGap ++ (name ++ rest) := by
  rw [← (name?_append hf).2, List.takeWhile_append_dropWhile]

/-- The first field of a list is an item of it, unless a parenthesis opens behind it. -/
theorem item?_of_first_field? (hf : field? (t.dropWhile Cell.isGap) = some (name, rest))
    (hp : opensParenthesis rest = false) :
    item? (t.dropWhile Cell.isGap) = some (.field name, rest) := by
  have hdrop := (name?_append hf).2
  rw [hdrop] at hf ⊢
  exact item?_of_field? hf hp

/-- The white space and the commas behind a field up to the last of the commas. -/
theorem exists_append_lastComma {s : List Char} (h : rest <:+ mask s)
    (hc : commaFollows rest = true) : ∃ front x gap,
      rest = front ++ x :: afterCommas rest ∧ x.face = ',' ∧ IsPlainGap (front ++ [x]) ∧
        afterCommas rest = gap ++ rest.dropWhile Cell.isGap ∧ ∀ y ∈ gap, y.isGap = true := by
  obtain ⟨commas, gap, hcommas, hafter, hgaps, ⟨hc', -⟩ | ⟨-, front, x, rfl, hx⟩⟩ :=
    exists_append_afterCommas rest
  · rw [hc] at hc'
    cases hc'
  have ho := outside_of_comma h hc
  rw [hcommas] at ho
  have hplain := ho.isPlainGap fun y hy => hgaps y (List.mem_append_left _ hy)
  rw [List.append_assoc, List.singleton_append] at hcommas
  exact ⟨front, x, gap, hcommas, hx, hplain, hafter, fun y hy =>
    hgaps y (List.mem_append_right _ hy)⟩

theorem afterCommas_of_not_commaFollows (h : commaFollows rest = false) :
    afterCommas rest = rest := by
  obtain ⟨commas, -, hcommas, -, -, ⟨-, rfl⟩ | ⟨hc, -⟩⟩ := exists_append_afterCommas rest
  · exact hcommas.symm
  · rw [h] at hc
    cases hc

section

variable {s : List Char} (ht : Outside s t)
  (hf : field? (t.dropWhile Cell.isGap) = some (name, rest))

include ht hf

theorem face_ne_comma_of_first_field? : ∀ x ∈ name, x.face ≠ ',' :=
  face_ne_of_field? (ht.dropWhile fun _ => isQuote_of_isGap) hf (by decide) (by decide) rfl

theorem suffix_of_first_field? : rest <:+ mask s :=
  (leaves_of_append (name?_append hf)).suffix.trans
    (ht.dropWhile fun _ => isQuote_of_isGap).suffix

/-- Where a run ends in its first field and a parenthesis opens there, the field names a call, which
may be a time bucket with runs of its own behind it. -/
theorem covers_of_first_callee (hc : commaFollows rest = false)
    (hp : opensParenthesis rest = true)
    (hb : ∀ b behind, bucketing? (t.dropWhile Cell.isGap) = some (b, behind) →
      commaFollows behind = true → Covers behind (walkBehind behind)) :
    Covers t (walk (t.takeWhile Cell.isGap ++ name) rest) := by
  have hstops : Stops isBlank (name ++ rest) :=
    ((name?_eq_some_iff (by decide) (by decide)).1 hf).1.isFieldToken.stops_blank rest
  obtain ⟨hnames, hbucket⟩ := run_of_opensParenthesis ht.isPlainGap_takeWhile
    (face_ne_comma_of_first_field? ht hf) (exists_concat_of_field? hf) hstops hp
  rw [← (name?_append hf).2] at hbucket
  rcases hbb : bucketing? (t.dropWhile Cell.isGap) with _ | ⟨b, behind⟩
  · have hi : item? (t.dropWhile Cell.isGap) = some (.callee name, rest) := by
      rw [item?, hbb, hf, Option.map_some]
      simp [hp]
    rw [walk_of_none (hbucket.trans hbb), hnames]
    exact covers_of_last hi hc
  · rw [walk_of_some (hbucket.trans hbb), hnames]
    exact covers_of_bucketing? hbb (hb b behind hbb)

/-- Where a run ends in its first field, the field is the last item of the list, or it names a
call. -/
theorem covers_of_run_end_in_field (hc : commaFollows rest = false)
    (hb : ∀ b behind, bucketing? (t.dropWhile Cell.isGap) = some (b, behind) →
      commaFollows behind = true → Covers behind (walkBehind behind)) :
    Covers t (walk (upTo t rest) rest) := by
  have hrun : upTo t rest = t.takeWhile Cell.isGap ++ name := by
    apply upTo_eq_of_append
    rw [List.append_assoc]
    exact eq_append_of_field? hf
  rw [hrun]
  by_cases hp : opensParenthesis rest = true
  · exact covers_of_first_callee ht hf hc hp hb
  · rw [Bool.not_eq_true] at hp
    have hnil : IsPlainGap [] := List.forall_mem_nil _
    have hnames :=
      runNames_item ht.isPlainGap_takeWhile (face_ne_comma_of_first_field? ht hf) hnil
    rw [List.append_nil] at hnames
    rw [walk_of_not_opensParenthesis hp, hnames, ← ofPieces_field]
    exact covers_of_last (item?_of_first_field? hf hp) hc

/-- Where a run ends in a comma behind its first field, the field is the last item of the list, and
white space and commas are left of it. -/
theorem covers_of_run_end_in_comma (hn : nextField? rest = none) (hc : commaFollows rest = true) :
    Covers t (walk (upTo t (afterCommas rest)) (afterCommas rest)) := by
  obtain ⟨front, x, gap, hsplit, hx, hplain, hafter, hgap⟩ :=
    exists_append_lastComma (suffix_of_first_field? ht hf) hc
  have hrun : upTo t (afterCommas rest) =
      t.takeWhile Cell.isGap ++ (name ++ (front ++ [x])) := by
    apply upTo_eq_of_append
    calc t = t.takeWhile Cell.isGap ++ (name ++ rest) := eq_append_of_field? hf
      _ = t.takeWhile Cell.isGap ++ (name ++ (front ++ x :: afterCommas rest)) := by rw [← hsplit]
      _ = _ := by simp
  have hnames := runNames_item ht.isPlainGap_takeWhile (face_ne_comma_of_first_field? ht hf) hplain
  have hwalk : walk (t.takeWhile Cell.isGap ++ (name ++ (front ++ [x]))) (afterCommas rest) =
      (.ofGrouping ⟨(groupField? name).toList, none⟩, afterCommas rest) := by
    rw [← hnames, ← List.append_assoc name, ← List.append_assoc]
    exact walk_of_comma hx _ _
  have hnone : item? (rest.dropWhile Cell.isGap) = none := by
    rw [nextField?, hc] at hn
    exact item?_of_field?_none hn
  have hcovers := covers_of_some
    (item?_of_first_field? hf (opensParenthesis_of_commaFollows hc)) hc
    (covers_of_none hnone gap hgap)
  rw [Clause.andThen_ofAggregations_nil] at hcovers
  rwa [hrun, hwalk, ← ofPieces_field, hafter]

/-- Where a run ends behind its first field, the field is an item of the list, or it names a
call. -/
theorem covers_of_run_end (hn : nextField? rest = none)
    (hb : ∀ b behind, bucketing? (t.dropWhile Cell.isGap) = some (b, behind) →
      commaFollows behind = true → Covers behind (walkBehind behind)) :
    Covers t (walk (upTo t (afterCommas rest)) (afterCommas rest)) := by
  by_cases hc : commaFollows rest = true
  · exact covers_of_run_end_in_comma ht hf hn hc
  · rw [Bool.not_eq_true] at hc
    rw [afterCommas_of_not_commaFollows hc]
    exact covers_of_run_end_in_field ht hf hc hb

end

/-- The first field of a run before a comma is an item of the list, and what stands behind the comma
is a run again. -/
theorem covers_of_nextField? {s : List Char} {r next r' : List Cell} (ht : Outside s t)
    (hf : field? (t.dropWhile Cell.isGap) = some (name, r)) (hn : nextField? r = some (next, r'))
    (hcovers : ∀ u, u.length < t.length → Outside s u → firstRun? u = some (runEnd r') →
      Covers u (walk (upTo u (runEnd r')) (runEnd r'))) :
    Covers t (walk (upTo t (runEnd r')) (runEnd r')) := by
  have htext := eq_append_of_field? hf
  have hr := suffix_of_first_field? ht hf
  obtain ⟨hc, hf'⟩ := nextField?_eq_some_iff.1 hn
  obtain ⟨front, x, gap, hsplit, hx, hplain, hafter, hgap⟩ := exists_append_lastComma hr hc
  generalize afterCommas r = u at hsplit hafter
  -- The run behind the comma.
  have hsame : u.dropWhile Cell.isGap = r.dropWhile Cell.isGap := by
    rw [hafter, List.dropWhile_append_of_pos hgap]
    exact List.dropWhile_idempotent _ r
  have hrun : firstRun? u = some (runEnd r') := by
    rw [firstRun?, hsame, hf']
    rfl
  have hu : Outside s u := by
    refine outside_comma_cons (t := u) (List.IsSuffix.trans ?_ hr) hx
    rw [hsplit]
    exact List.suffix_append _ _
  have hlt : u.length < t.length := by
    rw [htext, hsplit]
    simp only [List.length_append, List.length_cons]
    omega
  have hrest : Covers r (walk (upTo u (runEnd r')) (runEnd r')) :=
    .congr hsame.symm (hcovers u hlt hu hrun)
  have hupTo : upTo t (runEnd r') =
      t.takeWhile Cell.isGap ++ (name ++ front) ++ x :: upTo u (runEnd r') := by
    apply upTo_eq_of_append
    rwa [List.append_assoc, List.cons_append, (firstRun?_leaves hrun).upTo_append,
      List.append_assoc, List.append_assoc, ← hsplit]
  have hname := runNames_item ht.isPlainGap_takeWhile (face_ne_comma_of_first_field? ht hf)
    hplain.of_append.1
  rw [hupTo, walk_append_comma hx _ _ _ (exists_nonblank_of_firstRun? hrun), hname,
    ← ofPieces_field]
  exact covers_of_some (item?_of_first_field? hf (opensParenthesis_of_commaFollows hc)) hc hrest

theorem covers_walkBehind_of_run (hc : commaFollows t = true)
    (h : ∀ next, firstRun? t = some next → Covers t (walk (upTo t next) next)) :
    Covers t (walkBehind t) := by
  rw [walkBehind]
  rcases hnext : nextRun? t with _ | next
  · have hnone : field? (t.dropWhile Cell.isGap) = none := by
      rwa [nextRun?, Option.map_eq_none_iff, nextField?, hc] at hnext
    exact covers_of_gaps hnone
  · exact h next (nextRun?_eq_some_iff.1 hnext).2

/-- Reading a list in runs finds what reading it item by item does. -/
theorem covers_walk {s : List Char} (ht : Outside s t) (h : firstRun? t = some rest) :
    Covers t (walk (upTo t rest) rest) := by
  induction hlen : t.length using Nat.strong_induction_on generalizing t rest with
  | _ n ih =>
  subst hlen
  obtain ⟨⟨name, r⟩, hf, rfl⟩ := Option.map_eq_some_iff.1 h
  have hout : Outside s (t.dropWhile Cell.isGap) := ht.dropWhile fun _ => isQuote_of_isGap
  dsimp only
  rcases hn : nextField? r with _ | ⟨next, r'⟩
  · -- The run ends behind the field; a time bucket there may have a run behind it.
    rw [runEnd_of_none hn]
    refine covers_of_run_end ht hf hn fun b behind hb hc => ?_
    have hlt : behind.length < t.length :=
      ((bucketing?_leaves hb).of_suffix (List.dropWhile_suffix _)).length_lt
    exact covers_walkBehind_of_run hc fun next hnext =>
      ih behind.length hlt (outside_of_bucketing? hout.suffix hb) hnext rfl
  · rw [runEnd_of_some hn]
    exact covers_of_nextField? ht hf hn fun u hlt hu hrun => ih u.length hlt hu hrun rfl

/-- Reading behind a time bucket in runs finds what reading item by item does. -/
theorem covers_walkBehind {s : List Char} (ht : Outside s t) (hc : commaFollows t = true) :
    Covers t (walkBehind t) :=
  covers_walkBehind_of_run hc fun _ hnext => covers_walk ht hnext

/-- Reading the list of a grouping in runs finds what reading it item by item does. -/
theorem covers_walkList {s : List Char} (ht : Outside s t) : Covers t (walkList t) := by
  rw [walkList]
  split
  · next b behind hb =>
    obtain ⟨x, u, hu, hx⟩ := isFieldChar_of_bucketing? hb
    have hgap : x.isGap = false := isGap_of_isFieldChar hx
    have hdrop : t.dropWhile Cell.isGap = skipBlanks t := by
      have hsplit : t = t.takeWhile Cell.isBlank ++ skipBlanks t :=
        List.takeWhile_append_dropWhile.symm
      conv_lhs => rw [hsplit]
      rw [List.dropWhile_append_of_pos, hu, List.dropWhile_cons_of_neg (by simp [hgap])]
      intro y hy
      rw [Cell.isGap, List.mem_takeWhile_imp hy, Bool.true_or]
    rw [← hdrop] at hb
    have hout : Outside s (t.dropWhile Cell.isGap) := ht.dropWhile fun _ => isQuote_of_isGap
    exact covers_of_bucketing? hb (covers_walkBehind (outside_of_bucketing? hout.suffix hb))
  · next hb =>
    split
    · next rest hr => exact covers_walk ht hr
    · next hr =>
      rw [firstRun?, Option.map_eq_none_iff] at hr
      exact covers_of_gaps hr

/-! ## What runs leave -/

/-- In a time bucket a parenthesis opens. -/
theorem exists_parenthesis_of_bucketing? {b : Bucketing} (h : bucketing? t = some (b, rest)) :
    ∃ before x after, t = before ++ x :: after ∧ x.face = '(' ∧ rest <:+ after := by
  obtain ⟨text, rfl, span, clause, rfl, ⟨word, g₁, opening, g₂, g₃, comma, g₄, g₅, g₆, closing,
    hspan, -, -, hopening, -⟩, -⟩ := isBucketing_of_bucketing? h
  generalize g₂ ++ _ = tail at hspan
  refine ⟨word ++ g₁, opening, tail ++ (clause ++ rest), by rw [hspan]; simp, hopening, ?_⟩
  exact (List.suffix_append _ _).trans (List.suffix_append _ _)

theorem callPart?_append_suffix {run part : List Cell} (h : callPart? run rest = some part) :
    part ++ rest <:+ run ++ rest := by
  obtain ⟨before, rfl⟩ := callPart?_suffix h
  exact ⟨before, (List.append_assoc _ _ _).symm⟩

theorem outside_of_runBucket? {s : List Char} {run behind : List Cell} {b : Bucketing}
    (ht : Outside s (run ++ rest)) (h : runBucket? run rest = some (b, behind)) :
    Outside s behind := by
  obtain ⟨part, hpart, hb⟩ := Option.bind_eq_some_iff.1 h
  exact outside_of_bucketing?
    ((skipBlanks_suffix _).trans ((callPart?_append_suffix hpart).trans ht.suffix)) hb

/-- A time bucket that a run names ends behind the run. -/
theorem runBucket?_leaves_rest {s : List Char} {run behind : List Cell} {b : Bucketing}
    (ht : Outside s (run ++ rest)) (hrun : firstRun? (run ++ rest) = some rest)
    (h : runBucket? run rest = some (b, behind)) : Leaves rest behind := by
  obtain ⟨part, hpart, hb⟩ := Option.bind_eq_some_iff.1 h
  have hnone : ∀ x ∈ part, x.face ≠ '(' := by
    have hface := face_ne_of_firstRun? ht hrun
    rw [upTo_append] at hface
    exact fun x hx => hface x ((callPart?_suffix hpart).subset hx)
  obtain ⟨before, x, after, hsplit, hx, hbehind⟩ := exists_parenthesis_of_bucketing? hb
  have htext : part ++ rest = (part ++ rest).takeWhile Cell.isBlank ++ before ++ x :: after := by
    rw [List.append_assoc, ← hsplit]
    exact List.takeWhile_append_dropWhile.symm
  rcases List.append_eq_append_iff.1 htext with ⟨a, -, hrest⟩ | ⟨c, hpart', hrest⟩
  · exact ⟨a ++ x :: upTo after behind, by simp, by
      rw [hrest, List.append_assoc, List.cons_append, upTo_append_of_suffix hbehind]⟩
  · cases c with
    | nil => exact ⟨x :: upTo after behind, by simp, by
        rw [List.cons_append, upTo_append_of_suffix hbehind, hrest, List.nil_append]⟩
    | cons y c =>
      obtain ⟨rfl, -⟩ := List.cons.inj hrest
      exact absurd hx (hnone x (by rw [hpart']; simp))

/-- What the runs of a list leave stands behind the first of them. -/
theorem walk_suffix {s : List Char} {run : List Cell} (ht : Outside s (run ++ rest))
    (hrun : firstRun? (run ++ rest) = some rest) : (walk run rest).2 <:+ rest := by
  induction hn : (run ++ rest).length using Nat.strong_induction_on generalizing run rest with
  | _ n ih =>
  subst hn
  rcases hb : runBucket? run rest with _ | ⟨b, behind⟩
  · simp only [walk_of_none hb, List.suffix_rfl]
  · have hleaves := runBucket?_leaves_rest ht hrun hb
    rw [walk_of_some hb, walkBehind]
    rcases hnext : nextRun? behind with _ | next
    · exact hleaves.suffix
    · have hsplit : upTo behind next ++ next = behind := (nextRun?_leaves hnext).upTo_append
      refine List.IsSuffix.trans (ih _ ?_ ?_ ?_ rfl) ((nextRun?_leaves hnext).suffix.trans
        hleaves.suffix)
      · rw [hsplit]
        exact (runBucket?_leaves hb).length_lt
      · rw [hsplit]
        exact outside_of_runBucket? ht hb
      · rw [hsplit]
        exact (nextRun?_eq_some_iff.1 hnext).2

theorem walk_suffix_of_firstRun? {s : List Char} (ht : Outside s t) (h : firstRun? t = some rest) :
    (walk (upTo t rest) rest).2 <:+ rest := by
  have hsplit : upTo t rest ++ rest = t := (firstRun?_leaves h).upTo_append
  exact walk_suffix (by rwa [hsplit]) (by rwa [hsplit])

end

end QueryStats.Query
