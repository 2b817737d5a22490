import QueryStats.Proofs.ListRuns
import QueryStats.Proofs.Pipe

/-!
# Matches and their places

A search over masked text finds a call or a grouping keyword and tells where its parts are, as
ranges of byte offsets.  Each range to be read back starts outside quoted runs and ends where a
character begins (`Found`), so what is read back from the query is what the recognisers capture
(`Found.readBack?`).
-/

namespace QueryStats.Query

open Text

/-! ## Offsets of rests -/

/-- The offset at which a rest of masked text stands. -/
def place (scan t : List Cell) : Nat := width scan - width t

/-- The offset of a rest of a text that stands at an offset itself. -/
def offsetOf (base : Nat) (t rest : List Cell) : Nat := base + (width t - width rest)

/-- The range between two rests of a text that stands at an offset. -/
def between (base : Nat) (t u v : List Cell) : Range := ⟨offsetOf base t u, offsetOf base t v⟩

section

variable {scan t u v : List Cell}

theorem place_self : place scan scan = 0 := Nat.sub_self _

theorem place_le (scan t : List Cell) : place scan t ≤ width scan := Nat.sub_le _ _

theorem place_add_width (h : t <:+ scan) : place scan t + width t = width scan := by
  have := width_le_of_suffix h
  unfold place
  omega

theorem offsetOf_place (h : t <:+ scan) (hu : u <:+ t) :
    offsetOf (place scan t) t u = place scan u := by
  have := place_add_width h
  have := width_le_of_suffix hu
  unfold offsetOf place at *
  omega

theorem between_place (h : t <:+ scan) (hu : u <:+ t) (hv : v <:+ t) :
    between (place scan t) t u v = ⟨place scan u, place scan v⟩ := by
  rw [between, offsetOf_place h hu, offsetOf_place h hv]

theorem place_le_place (h : t <:+ scan) (hu : u <:+ t) : place scan t ≤ place scan u := by
  have := place_add_width h
  have := width_le_of_suffix hu
  unfold place at *
  omega

theorem place_lt_place (h : t <:+ scan) (hu : Leaves t u) : place scan t < place scan u := by
  obtain ⟨read, hne, rfl⟩ := hu
  have := place_add_width h
  have := width_pos hne
  rw [width_append] at *
  unfold place at *
  rw [width_append] at *
  omega

theorem place_append (h : u ++ t <:+ scan) : place scan t = place scan (u ++ t) + width u := by
  have h₁ := place_add_width h
  have h₂ := place_add_width ((List.suffix_append u t).trans h)
  rw [width_append] at h₁
  omega

theorem place_cons {x : Cell} (h : x :: t <:+ scan) :
    place scan t = place scan (x :: t) + x.face.utf8Size := by
  have hwidth : width [x] = x.face.utf8Size := by rw [width_cons, width_nil, Nat.add_zero]
  rw [← hwidth]
  exact place_append (u := [x]) h

theorem cut?_place (h : t <:+ scan) : cut? scan (place scan t) = some (upTo scan t, t) := by
  obtain ⟨front, rfl⟩ := h
  have hplace : place (front ++ t) t = width front := by
    rw [place, width_append]
    omega
  rw [hplace, cut?_append, upTo_append]

theorem cells?_place (h : u ++ t <:+ scan) :
    cells? scan ⟨place scan (u ++ t), place scan t⟩ = some u := by
  obtain ⟨front, hfront⟩ := h
  have hplace : place scan (u ++ t) = width front := by
    rw [place, ← hfront, width_append]
    omega
  rw [place_append ⟨front, hfront⟩, hplace, ← hfront]
  exact cells?_append front u t

end

/-! ## Parts of a match -/

variable {s : List Char} {t name part rest : List Cell}

/-- Whether a range of the masked form of a text holds a part of it that starts outside quoted runs
and ends where a character begins. -/
def Found (s : List Char) (r : Range) (part : List Cell) : Prop :=
  ∃ after, Outside s (part ++ after) ∧ Begins after ∧
    r = ⟨place (mask s) (part ++ after), place (mask s) after⟩

theorem found_between (ht : t <:+ mask s) {u : List Cell} (hu : u <:+ t)
    (hpart : u = part ++ rest) (hout : Outside s u) (hrest : Begins rest) :
    Found s (between (place (mask s) t) t u rest) part := by
  subst hpart
  exact ⟨rest, hout, hrest, between_place ht hu ((List.suffix_append part rest).trans hu)⟩

theorem found_append (hout : Outside s (part ++ rest)) (hrest : Begins rest) :
    Found s ⟨place (mask s) (part ++ rest), place (mask s) (part ++ rest) + width part⟩ part :=
  ⟨rest, hout, hrest, by rw [place_append hout.suffix]⟩

theorem Found.cells? {r : Range} (h : Found s r part) : Query.cells? (mask s) r = some part := by
  obtain ⟨after, hout, -, rfl⟩ := h
  exact cells?_place hout.suffix

/-- A character begins where a sign stands. -/
theorem begins_of_skipChar? {c : Char} (hc : c ≠ ' ') (hq : isQuote c = false)
    (ht : t <:+ mask s) (h : skipChar? c t = some rest) : Begins t := by
  obtain ⟨x, hx, rfl⟩ := skipChar?_eq_some_iff.1 h
  exact (outside_cons ht (by rwa [hx]) (by rwa [hx])).begins

/-- What is found is read back. -/
theorem Found.readBack? {source : String} {r : Range} (h : Found source.toList r part) :
    Query.readBack? source (mask source.toList) r = some (sourceText part) := by
  obtain ⟨after, hout, hafter, rfl⟩ := h
  obtain ⟨front, hfront⟩ := hout.suffix
  have hplace : place (mask source.toList) (part ++ after) = width front := by
    rw [place, ← hfront, width_append]
    omega
  rw [place_append hout.suffix, hplace]
  exact readBack?_of_split hfront hout hafter

/-- The range of an alias as written, which stands before a rest of a text. -/
def labelRange (base : Nat) (t rest : List Cell) (label : Option (List Cell)) : Option Range :=
  label.map fun name => between base t (name ++ rest) rest

theorem alias?_append_suffix (h : alias? t = some (name, rest)) : name ++ rest <:+ t := by
  simp only [alias?, Option.bind_eq_bind, Option.bind_eq_some_iff] at h
  obtain ⟨t₁, h₁, t₂, h₂, t₃, h₃, h₄⟩ := h
  rw [← (name?_append h₄).2]
  exact (skipSomeBlanks?_suffix h₃).trans
    ((skipKeyword?_suffix h₂).trans (skipSomeBlanks?_suffix h₁))

theorem found_labelRange {u : List Cell} (ht : t <:+ mask s) (hu : u <:+ t) :
    Option.Rel (Found s)
      (labelRange (place (mask s) t) t (optionalAlias u).2 (optionalAlias u).1)
      (optionalAlias u).1 := by
  rw [optionalAlias]
  split
  · next name rest h =>
    obtain ⟨hname, hrest⟩ := outside_of_alias? (hu.trans ht) h
    exact .some (found_between ht ((alias?_append_suffix h).trans hu) rfl hname hrest.begins)
  · exact .none

/-! ## Calls -/

/-- Where the parts of a call are. -/
structure CallMatch where
  whole : Range
  name : Range
  argument : Range
  label : Option Range
  deriving DecidableEq, Repr

/-- A call at the front of a text that stands at an offset. -/
def callMatch? (base : Nat) (t : List Cell) : Option CallMatch := do
  let (name, t₁) ← run? isNameChar t
  if !(name.head?.any (isNameStart ·.face)) then none else
  let t₂ ← skipChar? '(' t₁
  let t₃ := t₂.dropWhile (!isParenthesis ·.face)
  let t₄ ← skipChar? ')' t₃
  let (label, rest) := optionalAlias t₄
  return {
    whole := between base t t rest
    name := between base t t t₁
    argument := between base t t₂ t₃
    label := labelRange base t rest label }

/-- Whether the parts of a match are those of a call of the given text. -/
structure CallMatch.Holds (s : List Char) (m : CallMatch) (text : List Cell) (c : Call) :
    Prop where
  whole : Found s m.whole text
  name : Found s m.name c.name
  exists_shown : ∃ w, c.name = shown w
  argument : Found s m.argument c.argument
  label : Option.Rel (Found s) m.label c.label

theorem callMatch?_of_none (h : call? t = none) (base : Nat) : callMatch? base t = none := by
  simp only [call?, callMatch?, Option.bind_eq_bind] at *
  rcases h₁ : run? isNameChar t with _ | ⟨name, t₁⟩
  · rfl
  simp only [h₁, Option.bind_some] at *
  split at h
  · next hs => rw [if_pos hs]
  next hs =>
  rw [if_neg hs]
  rcases h₂ : skipChar? '(' t₁ with _ | t₂
  · rfl
  simp only [h₂, Option.bind_some] at *
  rcases h₃ : skipChar? ')' (t₂.dropWhile (!isParenthesis ·.face)) with _ | t₃
  · rfl
  · rw [h₃] at h
    cases h

/-- Where a call is read, a match tells where its parts are. -/
theorem exists_callMatch? (ht : t <:+ mask s) {c : Call} (h : call? t = some (c, rest)) :
    ∃ m, callMatch? (place (mask s) t) t = some m ∧
      m.whole = ⟨place (mask s) t, place (mask s) rest⟩ ∧ m.Holds s (upTo t rest) c := by
  have hleaves : Leaves t rest := call?_leaves h
  simp only [call?, Option.bind_eq_bind, Option.bind_eq_some_iff] at h
  obtain ⟨⟨name, t₁⟩, h₁, h⟩ := h
  simp only at h
  split at h
  · cases h
  next hstart =>
  simp only [Option.bind_eq_some_iff] at h
  obtain ⟨t₂, h₂, t₄, h₄, h⟩ := h
  simp only [Option.pure_def, Option.some.injEq, Prod.mk.injEq] at h
  obtain ⟨rfl, rfl⟩ := h
  simp only [callMatch?, h₁, h₂, h₄, Option.bind_eq_bind, Option.bind_some, if_neg hstart]
  -- The texts from each part on, outside quoted runs.
  obtain ⟨ho, ho₁, w, hw, -⟩ := run?_captures (fun _ => isAliasChar_of_isNameChar) ht h₁
  have ho₂ : Outside s t₂ := outside_of_skipChar? (by decide) (by decide) ho₁.suffix h₂
  have hs₂ : t₂ <:+ t :=
    (skipChar?_leaves h₂).suffix.trans (leaves_of_append (run?_append h₁)).suffix
  have hs₄ : t₄ <:+ t :=
    (skipChar?_leaves h₄).suffix.trans ((List.dropWhile_suffix _).trans hs₂)
  have hs₃ : t₂.dropWhile (!isParenthesis ·.face) <:+ mask s :=
    (List.dropWhile_suffix _).trans ho₂.suffix
  have hbegins := begins_of_skipChar? (by decide) (by decide) hs₃ h₄
  have ho₄ : Outside s t₄ := outside_of_skipChar? (by decide) (by decide) hs₃ h₄
  refine ⟨_, rfl, between_place ht List.suffix_rfl hleaves.suffix, ?_, ?_, ⟨w, hw⟩, ?_,
    found_labelRange ht hs₄⟩
  · exact found_between ht List.suffix_rfl hleaves.upTo_append.symm ho
      (outside_optionalAlias ho₄).begins
  · exact found_between ht List.suffix_rfl (run?_append h₁).2 ho ho₁.begins
  · exact found_between ht hs₂ List.takeWhile_append_dropWhile.symm ho₂ hbegins

/-! ## Time buckets -/

/-- Where the parts of a time bucket are, and the run of fields behind it. -/
structure BucketMatch where
  field : Range
  amount : Range
  unit : Range
  label : Option Range
  /-- The run of fields that a comma joins to the time bucket. -/
  fields : Option Range
  stop : Nat
  deriving DecidableEq, Repr

/-- A time bucket at the front of a text that stands at an offset. -/
def bucketMatch? (base : Nat) (t : List Cell) : Option BucketMatch := do
  let t₁ ← skipKeyword? "span" t
  let t₂ ← skipChar? '(' (skipBlanks t₁)
  let (_, t₃) ← field? (skipBlanks t₂)
  let t₄ ← skipChar? ',' (skipBlanks t₃)
  let (_, t₅) ← amount? (skipBlanks t₄)
  let (_, t₆) ← run? isLetter (skipBlanks t₅)
  let t₇ ← skipChar? ')' (skipBlanks t₆)
  let (label, behind) := optionalAlias t₇
  return {
    field := between base t (skipBlanks t₂) t₃
    amount := between base t (skipBlanks t₄) t₅
    unit := between base t (skipBlanks t₅) t₆
    label := labelRange base t behind label
    fields := (nextRun? behind).map (between base t behind)
    stop := offsetOf base t ((nextRun? behind).getD behind) }

/-- Whether the parts of a match are those of a time bucket with a text behind it. -/
structure BucketMatch.Holds (s : List Char) (m : BucketMatch) (b : Bucketing)
    (behind : List Cell) : Prop where
  field : Found s m.field b.field
  amount : Found s m.amount b.amount
  unit : Found s m.unit b.unit
  label : Option.Rel (Found s) m.label b.label
  fields : m.fields =
    (nextRun? behind).map fun next => ⟨place (mask s) behind, place (mask s) next⟩
  stop : m.stop = place (mask s) ((nextRun? behind).getD behind)

theorem bucketMatch?_of_none (h : bucketing? t = none) (base : Nat) :
    bucketMatch? base t = none := by
  simp only [bucketing?, bucketMatch?, Option.bind_eq_bind] at *
  rcases h₁ : skipKeyword? "span" t with _ | t₁
  · rfl
  simp only [h₁, Option.bind_some] at *
  rcases h₂ : skipChar? '(' (skipBlanks t₁) with _ | t₂
  · rfl
  simp only [h₂, Option.bind_some] at *
  rcases h₃ : field? (skipBlanks t₂) with _ | ⟨field, t₃⟩
  · rfl
  simp only [h₃, Option.bind_some] at *
  rcases h₄ : skipChar? ',' (skipBlanks t₃) with _ | t₄
  · rfl
  simp only [h₄, Option.bind_some] at *
  rcases h₅ : amount? (skipBlanks t₄) with _ | ⟨amount, t₅⟩
  · rfl
  simp only [h₅, Option.bind_some] at *
  rcases h₆ : run? isLetter (skipBlanks t₅) with _ | ⟨unit, t₆⟩
  · rfl
  simp only [h₆, Option.bind_some] at *
  rcases h₇ : skipChar? ')' (skipBlanks t₆) with _ | t₇
  · rfl
  · rw [h₇] at h
    cases h

/-- Where a time bucket is read, a match tells where its parts are. -/
theorem exists_bucketMatch? (ht : t <:+ mask s) {b : Bucketing}
    (h : bucketing? t = some (b, rest)) :
    ∃ m, bucketMatch? (place (mask s) t) t = some m ∧ m.Holds s b rest := by
  have hrest : rest <:+ t := (bucketing?_leaves h).suffix
  simp only [bucketing?, Option.bind_eq_bind, Option.bind_eq_some_iff] at h
  obtain ⟨t₁, h₁, t₂, h₂, ⟨field, t₃⟩, h₃, t₄, h₄, ⟨amount, t₅⟩, h₅, ⟨unit, t₆⟩, h₆, t₇, h₇, h⟩ := h
  simp only [Option.pure_def, Option.some.injEq, Prod.mk.injEq] at h
  obtain ⟨rfl, rfl⟩ := h
  simp only [bucketMatch?, h₁, h₂, h₃, h₄, h₅, h₆, h₇, Option.bind_eq_bind, Option.bind_some]
  -- The texts from each part on.
  have hs₂ : t₂ <:+ t := (skipChar?_leaves h₂).suffix.trans
    ((skipBlanks_suffix t₁).trans (skipKeyword?_suffix h₁))
  have hs₃ : skipBlanks t₂ <:+ t := (skipBlanks_suffix t₂).trans hs₂
  have hs₄ : t₄ <:+ t := (skipChar?_leaves h₄).suffix.trans
    ((skipBlanks_suffix t₃).trans ((leaves_of_append (name?_append h₃)).suffix.trans hs₃))
  have hs₅ : skipBlanks t₄ <:+ t := (skipBlanks_suffix t₄).trans hs₄
  have hs₆ : skipBlanks t₅ <:+ t := (skipBlanks_suffix t₅).trans
    ((amount?_leaves h₅).suffix.trans hs₅)
  have hs₇ : t₇ <:+ t := (skipChar?_leaves h₇).suffix.trans ((skipBlanks_suffix t₆).trans
    ((leaves_of_append (run?_append h₆)).suffix.trans hs₆))
  have ho₃ : Outside s (skipBlanks t₂) := (outside_of_skipChar? (by decide) (by decide)
    ((skipBlanks_suffix t₁).trans ((skipKeyword?_suffix h₁).trans ht)) h₂).skipBlanks
  have ho₅ : Outside s (skipBlanks t₄) := (outside_of_skipChar? (by decide) (by decide)
    ((skipBlanks_suffix t₃).trans ((leaves_of_append (name?_append h₃)).suffix.trans
      (hs₃.trans ht))) h₄).skipBlanks
  have ho₅' : Outside s t₅ := by
    obtain ⟨hdigits, hsplit⟩ := isAmount_of_amount? h₅
    rw [hsplit] at ho₅
    refine (ho₅.append fun x hx => isQuote_of_isAliasChar ?_).2
    exact hdigits.isAliasChar x.face (List.mem_map_of_mem hx)
  obtain ⟨ho₆, ho₆', -⟩ := run?_captures (fun _ => isAliasChar_of_isLetter) (hs₆.trans ht) h₆
  refine ⟨_, rfl, ?_, ?_, ?_, found_labelRange ht hs₇, ?_, ?_⟩
  · exact found_between ht hs₃ (name?_append h₃).2 ho₃ (begins_of_field? ho₃ h₃)
  · exact found_between ht hs₅ (isAmount_of_amount? h₅).2 ho₅ ho₅'.begins
  · exact found_between ht hs₆ (run?_append h₆).2 ho₆ ho₆'.begins
  · rcases hn : nextRun? (optionalAlias t₇).2 with _ | next
    · rfl
    · exact congrArg some (between_place ht hrest ((nextRun?_leaves hn).suffix.trans hrest))
  · rcases hn : nextRun? (optionalAlias t₇).2 with _ | next
    · exact offsetOf_place ht hrest
    · exact offsetOf_place ht ((nextRun?_leaves hn).suffix.trans hrest)

/-! ## Grouping keywords -/

/-- Where a grouping keyword is, and what stands behind it. -/
structure GroupMatch where
  /-- Whether the keyword is a bare `BY`. -/
  bare : Bool
  keyword : Range
  bucket : Option BucketMatch
  /-- The run of fields behind the keyword, or behind the time bucket. -/
  fields : Option Range
  stop : Nat
  deriving DecidableEq, Repr

/-- A grouping keyword at the front of a text that stands at an offset. -/
def groupMatch? (base : Nat) (t : List Cell) : Option GroupMatch := do
  let (bare, rest) ← ((skipGroupBy? t).map (false, ·)).or ((skipBy? t).map (true, ·))
  let first := skipBlanks rest
  match bucketMatch? (offsetOf base t first) first with
  | some m => some ⟨bare, between base t t rest, some m, m.fields, m.stop⟩
  | none =>
    let run := firstRun? rest
    some ⟨bare, between base t t rest, none, run.map (between base t rest),
      offsetOf base t (run.getD rest)⟩

/-- Whether a match tells what stands behind a keyword. -/
inductive GroupMatch.Holds (s : List Char) (m : GroupMatch) (rest : List Cell) : Prop where
  | bucket {b : Bucketing} {behind : List Cell} {item : BucketMatch}
    (found : bucketing? (skipBlanks rest) = some (b, behind)) (holds : item.Holds s b behind)
    (bucket : m.bucket = some item) (fields : m.fields = item.fields) (stop : m.stop = item.stop)
  | run (found : bucketing? (skipBlanks rest) = none) (bucket : m.bucket = none)
    (fields : m.fields =
      (firstRun? rest).map fun next => ⟨place (mask s) rest, place (mask s) next⟩)
    (stop : m.stop = place (mask s) ((firstRun? rest).getD rest))

theorem groupMatch?_of_none {seen : List Char} (h : groupingKeyword? seen t = none) (base : Nat) :
    groupMatch? base t = none := by
  rw [groupingKeyword?, Option.or_eq_none_iff, Option.map_eq_none_iff, Option.map_eq_none_iff] at h
  rw [groupMatch?, h.1, h.2]
  rfl

/-- Where a grouping keyword is read, a match tells what stands behind it. -/
theorem exists_groupMatch? (ht : t <:+ mask s) {seen : List Char} {opens : Bool}
    (h : groupingKeyword? seen t = some (opens, rest)) :
    ∃ m, groupMatch? (place (mask s) t) t = some m ∧ opens = (!m.bare || groupsBare seen) ∧
      m.keyword = ⟨place (mask s) t, place (mask s) rest⟩ ∧ m.Holds s rest := by
  have hrest : rest <:+ t := (groupingKeyword?_leaves h).suffix
  obtain ⟨bare, hkeyword, hopens⟩ :
      ∃ bare, ((skipGroupBy? t).map (false, ·)).or ((skipBy? t).map (true, ·)) =
        some (bare, rest) ∧ opens = (!bare || groupsBare seen) := by
    simp only [groupingKeyword?, Option.or_eq_some_iff, Option.map_eq_some_iff,
      Option.map_eq_none_iff, Prod.mk.injEq] at h ⊢
    rcases h with ⟨u, hu, rfl, rfl⟩ | ⟨hnone, u, hu, rfl, rfl⟩
    · exact ⟨false, Or.inl ⟨u, hu, rfl, rfl⟩, rfl⟩
    · exact ⟨true, Or.inr ⟨hnone, u, hu, rfl, rfl⟩, rfl⟩
  have hfirst : skipBlanks rest <:+ t := (skipBlanks_suffix rest).trans hrest
  rw [groupMatch?, hkeyword]
  simp only [Option.bind_eq_bind, Option.bind_some, offsetOf_place ht hfirst]
  rcases hb : bucketing? (skipBlanks rest) with _ | ⟨b, behind⟩
  · rw [bucketMatch?_of_none hb]
    refine ⟨_, rfl, hopens, between_place ht List.suffix_rfl hrest, .run hb rfl ?_ ?_⟩
    · rcases hr : firstRun? rest with _ | next
      · rfl
      · exact congrArg some (between_place ht hrest ((firstRun?_leaves hr).suffix.trans hrest))
    · rcases hr : firstRun? rest with _ | next
      · exact offsetOf_place ht hrest
      · exact offsetOf_place ht ((firstRun?_leaves hr).suffix.trans hrest)
  · obtain ⟨item, hitem, hholds⟩ := exists_bucketMatch? (hfirst.trans ht) hb
    rw [hitem]
    exact ⟨_, rfl, hopens, between_place ht List.suffix_rfl hrest, .bucket hb hholds rfl rfl rfl⟩

/-! ## The search -/

/-- What a search finds: a call or a grouping keyword. -/
inductive Match where
  | call (m : CallMatch)
  | grouping (m : GroupMatch)
  deriving DecidableEq, Repr

/-- A match at the front of a text that stands at an offset; a call is tried first.  The faces
before the text are given backwards. -/
def matchAt? (seen : List Char) (base : Nat) (t : List Cell) : Option Match :=
  if !startsWord seen then none
  else ((callMatch? base t).map .call).or ((groupMatch? base t).map .grouping)

/-- The first match in a text that stands at an offset. -/
def firstMatch? (seen : List Char) (base : Nat) : List Cell → Option Match
  | [] => none
  | x :: t =>
    (matchAt? seen base (x :: t)).or (firstMatch? (x.face :: seen) (base + x.face.utf8Size) t)

theorem matchAt?_of_none {seen : List Char} (h : read? seen t = none) (base : Nat) :
    matchAt? seen base t = none := by
  rw [read?] at h
  rw [matchAt?]
  split at h
  · next hs => rw [if_pos hs]
  next hs =>
  rw [if_neg hs]
  split at h
  · cases h
  · next hc =>
    rw [Option.map_eq_none_iff] at h
    rw [callMatch?_of_none hc, groupMatch?_of_none h]
    rfl

/-- A match that is a grouping keyword tells what stands behind it. -/
theorem exists_of_matchAt?_grouping (ht : t <:+ mask s) {seen : List Char} {m : GroupMatch}
    (h : matchAt? seen (place (mask s) t) t = some (.grouping m)) :
    ∃ opens rest, groupingKeyword? seen t = some (opens, rest) ∧
      opens = (!m.bare || groupsBare seen) ∧
      m.keyword = ⟨place (mask s) t, place (mask s) rest⟩ ∧ m.Holds s rest := by
  rw [matchAt?] at h
  split at h
  · cases h
  rw [Option.or_eq_some_iff, Option.map_eq_some_iff, Option.map_eq_some_iff] at h
  rcases h with ⟨c, -, hc⟩ | ⟨-, m', hm, hgrouping⟩
  · cases hc
  obtain rfl := Match.grouping.inj hgrouping
  rcases hk : groupingKeyword? seen t with _ | ⟨opens, rest⟩
  · rw [groupMatch?_of_none hk] at hm
    cases hm
  · obtain ⟨m, hm', hopens, hkeyword, hholds⟩ := exists_groupMatch? ht hk
    rw [hm', Option.some.injEq] at hm
    subst hm
    exact ⟨opens, rest, rfl, hopens, hkeyword, hholds⟩

end QueryStats.Query
