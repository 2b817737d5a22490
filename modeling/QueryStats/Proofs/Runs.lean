import Mathlib.Data.List.DropRight
import QueryStats.Proofs.Boundary
import QueryStats.Proofs.Buckets
import QueryStats.Proofs.ReadBack

/-!
# Runs of fields

A run is a stretch of fields with commas between them, found in one go (`firstRun?`); it ends in a
field or in a comma.  Its names are those between its commas (`runNames`), but its last token may
name a call instead of a field, as is told by what follows the run (`namesCall`).  A run shows no
parenthesis, and a character begins behind it.
-/

namespace QueryStats.Query

open Text

/-! ## Where runs end -/

theorem upTo_eq_of_append {t a rest : List Cell} (h : t = a ++ rest) : upTo t rest = a := by
  rw [h, upTo_append]

theorem upTo_append_of_suffix {t rest : List Cell} (h : rest <:+ t) : upTo t rest ++ rest = t := by
  obtain ⟨a, rfl⟩ := h
  rw [upTo_append]

/-- The text behind the last of the commas at the front. -/
def afterCommas (t : List Cell) : List Cell :=
  t.drop ((t.takeWhile Cell.isGap).rdropWhile Cell.isBlank).length

/-- The field behind the commas at the front, of which there must be one, and the text after it. -/
def nextField? (t : List Cell) : Option (List Cell × List Cell) :=
  if commaFollows t then field? (t.dropWhile Cell.isGap) else none

theorem nextField?_eq_some_iff {t name rest : List Cell} : nextField? t = some (name, rest) ↔
    commaFollows t = true ∧ field? (t.dropWhile Cell.isGap) = some (name, rest) := by
  rw [nextField?, Option.ite_none_right_eq_some]

theorem nextField?_leaves {t name rest : List Cell} (h : nextField? t = some (name, rest)) :
    Leaves t rest := by
  have hf := (nextField?_eq_some_iff.1 h).2
  exact (leaves_of_append (name?_append hf)).of_suffix (List.dropWhile_suffix _)

/-- The text behind the rest of a run, given the text behind one of its fields. -/
def runEnd (t : List Cell) : List Cell :=
  match _h : nextField? t with
  | some (_, rest) => runEnd rest
  | none => afterCommas t
termination_by t.length
decreasing_by exact (nextField?_leaves _h).length_lt

/-- The text behind a run that may begin with commas. -/
def firstRun? (t : List Cell) : Option (List Cell) :=
  (field? (t.dropWhile Cell.isGap)).map fun (_, rest) => runEnd rest

/-- The text behind a run that begins with a comma. -/
def nextRun? (t : List Cell) : Option (List Cell) := (nextField? t).map fun (_, rest) => runEnd rest

theorem afterCommas_suffix (t : List Cell) : afterCommas t <:+ t := List.drop_suffix _ _

theorem runEnd_of_some {t name rest : List Cell} (h : nextField? t = some (name, rest)) :
    runEnd t = runEnd rest := by
  rw [runEnd]
  split
  · next name' rest' h' =>
    rw [h, Option.some.injEq, Prod.mk.injEq] at h'
    rw [h'.2]
  · next h' =>
    rw [h] at h'
    cases h'

theorem runEnd_of_none {t : List Cell} (h : nextField? t = none) : runEnd t = afterCommas t := by
  rw [runEnd]
  split
  · next h' =>
    rw [h] at h'
    cases h'
  · rfl

theorem runEnd_suffix (t : List Cell) : runEnd t <:+ t := by
  fun_induction runEnd t with
  | case1 t name rest h ih => exact ih.trans (nextField?_leaves h).suffix
  | case2 t h => exact afterCommas_suffix t

theorem firstRun?_leaves {t v : List Cell} (h : firstRun? t = some v) : Leaves t v := by
  obtain ⟨⟨name, rest⟩, hf, rfl⟩ := Option.map_eq_some_iff.1 h
  exact ((leaves_of_append (name?_append hf)).of_suffix
    (List.dropWhile_suffix _)).trans_suffix (runEnd_suffix rest)

theorem nextRun?_leaves {t v : List Cell} (h : nextRun? t = some v) : Leaves t v := by
  obtain ⟨⟨name, rest⟩, hf, rfl⟩ := Option.map_eq_some_iff.1 h
  exact (nextField?_leaves hf).trans_suffix (runEnd_suffix rest)

theorem nextRun?_eq_some_iff {t v : List Cell} :
    nextRun? t = some v ↔ commaFollows t = true ∧ firstRun? t = some v := by
  rw [nextRun?, nextField?, firstRun?]
  by_cases h : commaFollows t = true <;> simp [h]

/-! ## What a run holds -/

/-- What stands before and behind the last comma of a run. -/
def lastComma? (run : List Cell) : Option (List Cell × List Cell) :=
  match run.rdropWhile (·.face != ',') with
  | [] => none
  | x :: front => some ((x :: front).dropLast, run.rtakeWhile (·.face != ','))

/-- Whether the last token of a run before the given text names a call: no comma is behind it, and a
parenthesis opens there. -/
def namesCall (run rest : List Cell) : Bool :=
  !((run.rdropWhile Cell.isBlank).getLast?.any (·.face = ',')) && opensParenthesis rest

/-- The part of a run that holds its fields: all of it, or what stands before the last comma. -/
def fieldPart (run rest : List Cell) : List Cell :=
  if namesCall run rest then ((lastComma? run).map Prod.fst).getD [] else run

/-- The part of a run that names a call. -/
def callPart? (run rest : List Cell) : Option (List Cell) :=
  if namesCall run rest then some (((lastComma? run).map Prod.snd).getD run) else none

/-- The names between the commas of a run, those that are empty left out. -/
def runNames (run : List Cell) : List String :=
  (run.splitOnP (·.face = ',')).filterMap groupField?

theorem lastComma?_append {x : Cell} (hx : x.face = ',') (a : List Cell) {b : List Cell}
    (hb : ∀ y ∈ b, y.face ≠ ',') : lastComma? (a ++ x :: b) = some (a, b) := by
  have hp : ∀ y ∈ b.reverse, (y.face != ',') = true := by
    intro y hy
    simpa using hb y (List.mem_reverse.1 hy)
  have hd : (a ++ x :: b).rdropWhile (·.face != ',') = a ++ [x] := by
    rw [List.rdropWhile, List.reverse_append, List.reverse_cons, List.append_assoc,
      List.dropWhile_append_of_pos hp]
    simp [hx]
  have ht : (a ++ x :: b).rtakeWhile (·.face != ',') = b := by
    rw [List.rtakeWhile, List.reverse_append, List.reverse_cons, List.append_assoc,
      List.takeWhile_append_of_pos hp]
    simp [hx]
  rw [lastComma?, hd, ht]
  cases a with
  | nil => rfl
  | cons y a =>
    show some ((y :: a ++ [x]).dropLast, b) = _
    rw [List.dropLast_concat]

theorem lastComma?_of_notMem {run : List Cell} (h : ∀ x ∈ run, x.face ≠ ',') :
    lastComma? run = none := by
  have hd : run.rdropWhile (·.face != ',') = [] := by
    rw [List.rdropWhile_eq_nil_iff]
    simpa using h
  rw [lastComma?, hd]

/-- A list has no element of a kind, or it has a last one. -/
theorem exists_last {α : Type} (p : α → Prop) (l : List α) :
    (∀ x ∈ l, ¬p x) ∨ ∃ a x b, l = a ++ x :: b ∧ p x ∧ ∀ y ∈ b, ¬p y := by
  induction l using List.reverseRecOn with
  | nil => exact Or.inl nofun
  | append_singleton l x ih =>
    by_cases hx : p x
    · exact Or.inr ⟨l, x, [], rfl, hx, nofun⟩
    rcases ih with h | ⟨a, y, b, rfl, hy, hb⟩
    · exact Or.inl (List.forall_mem_append.2 ⟨h, List.forall_mem_singleton.2 hx⟩)
    · refine Or.inr ⟨a, y, b ++ [x], by simp, hy, ?_⟩
      exact List.forall_mem_append.2 ⟨hb, List.forall_mem_singleton.2 hx⟩

theorem exists_lastComma (run : List Cell) : (∀ x ∈ run, x.face ≠ ',') ∨
    ∃ a x b, run = a ++ x :: b ∧ x.face = ',' ∧ ∀ y ∈ b, y.face ≠ ',' :=
  exists_last (·.face = ',') run

theorem lastComma?_append_comma {x : Cell} (hx : x.face = ',') (a run : List Cell) :
    lastComma? (a ++ x :: run) =
      some (((lastComma? run).map fun parts => (a ++ x :: parts.1, parts.2)).getD (a, run)) := by
  rcases exists_lastComma run with h | ⟨b, y, c, rfl, hy, hc⟩
  · rw [lastComma?_append hx a h, lastComma?_of_notMem h]
    rfl
  · rw [lastComma?_append hy b hc]
    have hsplit : a ++ x :: (b ++ y :: c) = (a ++ x :: b) ++ y :: c := by simp
    rw [hsplit, lastComma?_append hy _ hc]
    rfl

theorem runNames_append_comma {x : Cell} (hx : x.face = ',') (a b : List Cell) :
    runNames (a ++ x :: b) = runNames a ++ runNames b := by
  rw [runNames, List.splitOnP_append_cons _ _ (by simpa using hx), List.filterMap_append, runNames,
    runNames]

theorem runNames_of_notMem {run : List Cell} (h : ∀ x ∈ run, x.face ≠ ',') :
    runNames run = (groupField? run).toList := by
  rw [runNames, List.splitOnP_eq_singleton fun x hx => by simpa using h x hx,
    List.filterMap_cons]
  cases groupField? run <;> rfl

@[simp] theorem runNames_nil : runNames [] = [] := by
  rw [runNames_of_notMem (by simp)]
  rfl

/-! ## White space and commas -/

/-- White space and commas outside quoted runs. -/
def IsPlainGap (gap : List Cell) : Prop := ∀ x ∈ gap, x.isGap = true ∧ x = .plain x.face

theorem IsPlainGap.of_append {a b : List Cell} (h : IsPlainGap (a ++ b)) :
    IsPlainGap a ∧ IsPlainGap b := List.forall_mem_append.1 h

/-- What of the white space and commas before the first comma is white space. -/
theorem IsPlainGap.isBlank {gap : List Cell} (h : IsPlainGap gap) (hc : ∀ x ∈ gap, x.face ≠ ',') :
    ∀ c ∈ sources gap, Text.isBlank c = true := by
  intro c hm
  obtain ⟨x, hx, hs⟩ := List.mem_filterMap.1 hm
  obtain ⟨hgap, hplain⟩ := h x hx
  rw [hplain] at hs
  obtain rfl : x.face = c := Option.some.inj hs
  rw [Cell.isGap, Bool.or_eq_true, decide_eq_true_eq] at hgap
  exact hgap.resolve_right (hc x hx)

theorem Outside.isPlainGap {s : List Char} {gap t : List Cell} (h : Outside s (gap ++ t))
    (hg : ∀ x ∈ gap, x.isGap = true) : IsPlainGap gap := by
  have hplain := (h.append fun x hx => isQuote_of_isGap (hg x hx)).1
  intro x hx
  refine ⟨hg x hx, ?_⟩
  rw [hplain] at hx
  obtain ⟨c, -, rfl⟩ := List.mem_map.1 hx
  rfl

/-- White space around a text does not change the name that it spells. -/
theorem groupField?_of_blanks {a t b : List Cell} (ha : ∀ c ∈ sources a, Text.isBlank c = true)
    (hb : ∀ c ∈ sources b, Text.isBlank c = true) :
    groupField? (a ++ (t ++ b)) = groupField? t := by
  have htrim : trim (sources (a ++ (t ++ b))) = trim (sources t) := by
    obtain ⟨a', b', ht, ha', hb'⟩ := exists_append_trim (sources t)
    have hsplit : sources (a ++ (t ++ b)) =
        (sources a ++ a') ++ (trim (sources t) ++ (b' ++ sources b)) := by
      rw [sources_append, sources_append]
      conv_lhs => rw [ht]
      simp
    rw [hsplit]
    exact trim_append_of_ends (List.forall_mem_append.2 ⟨ha, ha'⟩)
      (List.forall_mem_append.2 ⟨hb', hb⟩) (head_trim _) (last_trim _)
  rw [groupField?, fieldNameChars, htrim, groupField?, fieldNameChars]

theorem groupField?_gap {gap : List Cell} (h : IsPlainGap gap) (hc : ∀ x ∈ gap, x.face ≠ ',') :
    groupField? gap = none := by
  have := groupField?_of_blanks (t := []) (b := []) (h.isBlank hc) (by simp [sources])
  rwa [List.append_nil, List.append_nil] at this

theorem runNames_gap {gap : List Cell} (h : IsPlainGap gap) : runNames gap = [] := by
  induction hn : gap.length using Nat.strong_induction_on generalizing gap with
  | _ n ih =>
  subst hn
  rcases exists_lastComma gap with hc | ⟨a, x, b, rfl, hx, hb⟩
  · rw [runNames_of_notMem hc, groupField?_gap h hc]
    rfl
  · obtain ⟨ha, hxb⟩ := h.of_append
    have hplain : IsPlainGap b := fun y hy => hxb y (List.mem_cons_of_mem x hy)
    rw [runNames_append_comma hx, ih a.length (by simp) ha rfl, runNames_of_notMem hb,
      groupField?_gap hplain hb]
    rfl

theorem runNames_append_gap {t gap : List Cell} (ht : ∀ x ∈ t, x.face ≠ ',') (h : IsPlainGap gap) :
    runNames (t ++ gap) = (groupField? t).toList := by
  induction hn : gap.length using Nat.strong_induction_on generalizing gap with
  | _ n ih =>
  subst hn
  rcases exists_lastComma gap with hc | ⟨a, x, b, rfl, hx, hb⟩
  · rw [runNames_of_notMem (List.forall_mem_append.2 ⟨ht, hc⟩)]
    have := groupField?_of_blanks (a := []) (t := t) (by simp [sources]) (h.isBlank hc)
    rw [← this, List.nil_append]
  · obtain ⟨ha, hxb⟩ := h.of_append
    have hplain : IsPlainGap b := fun y hy => hxb y (List.mem_cons_of_mem x hy)
    rw [← List.append_assoc, runNames_append_comma hx, ih a.length (by simp) ha rfl,
      runNames_gap hplain, List.append_nil]

/-- A part of a run without commas, with white space and commas around it, spells one name at
most. -/
theorem runNames_item {g₁ t g₂ : List Cell} (h₁ : IsPlainGap g₁) (ht : ∀ x ∈ t, x.face ≠ ',')
    (h₂ : IsPlainGap g₂) : runNames (g₁ ++ (t ++ g₂)) = (groupField? t).toList := by
  -- Only the white space behind the last comma goes into the name, and does not count there.
  have hblank : ∀ g, IsPlainGap g → (∀ x ∈ g, x.face ≠ ',') →
      runNames (g ++ (t ++ g₂)) = (groupField? t).toList := by
    intro g hg hc
    rw [← List.append_assoc, runNames_append_gap (List.forall_mem_append.2 ⟨hc, ht⟩) h₂]
    have := groupField?_of_blanks (t := t) (b := []) (hg.isBlank hc) (by simp [sources])
    rw [List.append_nil] at this
    rw [this]
  rcases exists_lastComma g₁ with hc | ⟨a, x, b, rfl, hx, hb⟩
  · exact hblank g₁ h₁ hc
  · obtain ⟨ha, hxb⟩ := h₁.of_append
    have hplain : IsPlainGap b := fun y hy => hxb y (List.mem_cons_of_mem x hy)
    rw [List.append_assoc, List.cons_append, runNames_append_comma hx, runNames_gap ha,
      hblank b hplain hb, List.nil_append]

/-! ## Fields outside quoted runs -/

section

variable {s : List Char} {t name rest : List Cell}

theorem isGap_of_isFieldChar {x : Cell} (h : isFieldChar x.face = true) : x.isGap = false := by
  rw [Cell.isGap, Cell.isBlank, isBlank_of_isFieldChar h, Bool.false_or, decide_eq_false_iff_not]
  intro hc
  rw [hc] at h
  cases h

/-- In a quoted run nothing shows but blanks and its quotes. -/
theorem face_of_mem_quotedRun {q : Char} (hq : isQuote q = true) (ht : Outside s (name ++ rest))
    (h : IsQuotedRun q name) {z : Cell} (hz : z ∈ name) : z.face = ' ' ∨ z.face = q := by
  obtain ⟨x, body, y, rfl, hx, hbody, hy⟩ := h
  rw [List.mem_cons, List.mem_append, List.mem_singleton] at hz
  rcases hz with rfl | hz | rfl
  · exact Or.inr hx
  · obtain ⟨a, b, rfl⟩ := List.append_of_mem hz
    obtain ⟨-, s₂, -, -, hm⟩ := ht
    have hsplit : maskFrom none s₂ = (x :: a) ++ z :: (b ++ [y] ++ rest) := by
      rw [← mask, ← hm]
      simp
    have ha : q ∉ faces a := by
      intro hm
      obtain ⟨u, hu, hf⟩ := List.mem_map.1 hm
      exact hbody u (List.mem_append_left _ hu) hf
    have hopen : quoteAfter none (faces (x :: a)) = some q := by
      rw [faces_cons, quoteAfter_cons, hx, nextQuote, if_pos hq, quoteAfter_some_of_notMem ha]
    exact face_of_open_run namesQuote_none hsplit hopen
  · exact Or.inr hy

/-- Outside quoted runs no sign that a bare field cannot hold shows in a field. -/
theorem face_ne_of_field? (ht : Outside s t) (h : field? t = some (name, rest)) {c : Char}
    (hc : isFieldChar c = false) (hb : c ≠ ' ') (hq : isQuote c = false) :
    ∀ x ∈ name, x.face ≠ c := by
  obtain ⟨hname, rfl⟩ := (name?_eq_some_iff (by decide) (by decide)).1 h
  have hquoted {q : Char} (hquote : isQuote q = true) (hr : IsQuotedRun q name) :
      ∀ x ∈ name, x.face ≠ c := by
    rintro x hx rfl
    rcases face_of_mem_quotedRun hquote ht hr hx with hf | hf
    · exact hb hf
    · rw [hf, hquote] at hq
      cases hq
  rcases hname with hname | hname | ⟨-, hbare, -⟩
  · exact hquoted (by decide) hname
  · exact hquoted (by decide) hname
  · rintro x hx rfl
    rw [hbare x hx] at hc
    cases hc

/-- A field ends in neither white space nor a comma. -/
theorem exists_concat_of_field? (h : field? t = some (name, rest)) :
    ∃ front x, name = front ++ [x] ∧ x.isGap = false := by
  have hquoted {q : Char} (hq : isQuote q = true) (hc : q ≠ ',') (hr : IsQuotedRun q name) :
      ∃ front x, name = front ++ [x] ∧ x.isGap = false := by
    obtain ⟨x, body, y, rfl, -, -, hy⟩ := hr
    refine ⟨x :: body, y, rfl, ?_⟩
    rw [Cell.isGap, Cell.isBlank, hy, isBlank_quote hq, Bool.false_or]
    exact decide_eq_false hc
  rcases ((name?_eq_some_iff (by decide) (by decide)).1 h).1 with hname | hname | ⟨hne, hbare, -⟩
  · exact hquoted (by decide) (by decide) hname
  · exact hquoted (by decide) (by decide) hname
  · refine ⟨name.dropLast, name.getLast hne, (List.dropLast_append_getLast hne).symm, ?_⟩
    exact isGap_of_isFieldChar (hbare _ (List.getLast_mem hne))

theorem face_ne_blank_of_isGap {x : Cell} (h : x.isGap = false) : x.face ≠ ' ' := by
  intro hx
  rw [Cell.isGap, Cell.isBlank, hx] at h
  cases h

/-- A character begins behind a field. -/
theorem begins_of_field? (ht : Outside s t) (h : field? t = some (name, rest)) : Begins rest := by
  obtain ⟨front, x, rfl, hx⟩ := exists_concat_of_field? h
  obtain ⟨-, s₂, -, -, hm⟩ := ht
  have hsplit : maskFrom none s₂ = front ++ x :: rest := by
    rw [← mask, ← hm, (name?_append h).2, List.append_assoc, List.singleton_append]
  exact begins_of_face_ne hsplit (face_ne_blank_of_isGap hx)

/-! ## Commas -/

theorem face_ne_comma_of_isBlank {x : Cell} (h : x.isBlank = true) : x.face ≠ ',' := by
  intro hx
  rw [Cell.isBlank, hx] at h
  cases h

theorem eq_comma_of_isGap {x : Cell} (h : x.isGap = true) (hb : ¬x.isBlank = true) :
    x.face = ',' := by
  rw [Cell.isGap, Bool.or_eq_true, decide_eq_true_eq] at h
  exact h.resolve_left hb

/-- No call is named before a comma. -/
theorem opensParenthesis_of_commaFollows (h : commaFollows t = true) :
    opensParenthesis t = false := by
  rw [← Bool.not_eq_true]
  intro hp
  obtain ⟨u, hu⟩ := Option.isSome_iff_exists.1 hp
  obtain ⟨x, hx, hskip⟩ := skipChar?_eq_some_iff.1 hu
  have hsplit : t = t.takeWhile Cell.isBlank ++ x :: u := by
    rw [← hskip]
    exact List.takeWhile_append_dropWhile.symm
  have hgap : ∀ y ∈ t.takeWhile Cell.isBlank, y.isGap = true := by
    intro y hy
    rw [Cell.isGap, List.mem_takeWhile_imp hy, Bool.true_or]
  have hxgap : x.isGap = false := by
    rw [Cell.isGap, Cell.isBlank, hx]
    rfl
  rw [commaFollows, hsplit, List.takeWhile_append_of_pos hgap, List.takeWhile_cons, hxgap,
    if_neg Bool.false_ne_true, List.append_nil, List.any_eq_true] at h
  obtain ⟨y, hy, hcomma⟩ := h
  rw [decide_eq_true_eq] at hcomma
  exact face_ne_comma_of_isBlank (List.mem_takeWhile_imp hy) hcomma

/-- The commas at the front, and the text behind them: either there are none, or the last of them
is a comma indeed. -/
theorem exists_append_afterCommas (t : List Cell) : ∃ commas gap,
    t = commas ++ afterCommas t ∧ afterCommas t = gap ++ t.dropWhile Cell.isGap ∧
      (∀ x ∈ commas ++ gap, x.isGap = true) ∧
      (commaFollows t = false ∧ commas = [] ∨
        commaFollows t = true ∧ ∃ front x, commas = front ++ [x] ∧ x.face = ',') := by
  have hg : t.takeWhile Cell.isGap = (t.takeWhile Cell.isGap).rdropWhile Cell.isBlank ++
      (t.takeWhile Cell.isGap).rtakeWhile Cell.isBlank := List.rdropWhile_append_rtakeWhile.symm
  have hgap : ∀ x ∈ t.takeWhile Cell.isGap, x.isGap = true := fun x hx => List.mem_takeWhile_imp hx
  have hblank : ∀ x ∈ (t.takeWhile Cell.isGap).rtakeWhile Cell.isBlank, x.face ≠ ',' :=
    fun x hx => face_ne_comma_of_isBlank (List.mem_rtakeWhile_imp hx)
  have hlast : ∀ x ∈ ((t.takeWhile Cell.isGap).rdropWhile Cell.isBlank).getLast?,
      ¬x.isBlank = true := by
    intro x hx
    obtain ⟨hne, rfl⟩ := List.mem_getLast?_eq_getLast hx
    exact List.rdropWhile_last_not _ _ hne
  have ht : t.takeWhile Cell.isGap ++ t.dropWhile Cell.isGap = t := List.takeWhile_append_dropWhile
  unfold afterCommas commaFollows
  generalize (t.takeWhile Cell.isGap).rdropWhile Cell.isBlank = commas at *
  generalize (t.takeWhile Cell.isGap).rtakeWhile Cell.isBlank = gap at *
  have hsplit : t = commas ++ (gap ++ t.dropWhile Cell.isGap) := by
    rw [← List.append_assoc, ← hg, ht]
  have hdrop : t.drop commas.length = gap ++ t.dropWhile Cell.isGap := by
    conv_lhs => rw [hsplit]
    exact List.drop_left
  refine ⟨commas, gap, by rw [hdrop]; exact hsplit, hdrop, by rwa [← hg], ?_⟩
  rcases List.eq_nil_or_concat commas with rfl | ⟨front, x, rfl⟩
  · refine Or.inl ⟨?_, rfl⟩
    rw [hg, List.nil_append, List.any_eq_false]
    simpa using hblank
  · have hcomma : x.face = ',' :=
      eq_comma_of_isGap (hgap x (by rw [hg]; simp)) (hlast x (by simp))
    refine Or.inr ⟨?_, front, x, List.concat_eq_append, hcomma⟩
    rw [hg, List.any_eq_true]
    exact ⟨x, by simp, by simpa using hcomma⟩

/-- An alias starts outside quoted runs, and so does what follows it. -/
theorem outside_of_alias? {s : List Char} (ht : t <:+ mask s) (h : alias? t = some (name, rest)) :
    Outside s (name ++ rest) ∧ Outside s rest := by
  simp only [alias?, Option.bind_eq_bind, Option.bind_eq_some_iff] at h
  obtain ⟨t₁, h₁, t₂, h₂, t₃, h₃, h₄⟩ := h
  have ho₂ : Outside s t₂ := outside_of_skipKeyword? (by decide) (by decide)
    ((skipSomeBlanks?_suffix h₁).trans ht) h₂
  have ho₃ : Outside s t₃ := ho₂.skipSomeBlanks? h₃
  have hsplit := (name?_append h₄).2
  refine ⟨hsplit ▸ ho₃, ?_⟩
  rw [name?, Option.or_eq_some_iff, Option.or_eq_some_iff] at h₄
  rcases h₄ with h₄ | ⟨-, h₄ | ⟨-, h₄⟩⟩
  · exact (ho₃.quoted? (by decide) h₄).2
  · exact (ho₃.quoted? (by decide) h₄).2
  · rw [hsplit] at ho₃
    exact (ho₃.append fun x hx => isQuote_of_isAliasChar (forall_of_run? h₄ x hx)).2

theorem outside_optionalAlias {s : List Char} (ht : Outside s t) :
    Outside s (optionalAlias t).2 := by
  rw [optionalAlias]
  split
  · next h => exact (outside_of_alias? ht.suffix h).2
  · exact ht

theorem outside_of_bucketing? {s : List Char} (ht : t <:+ mask s) {b : Bucketing}
    (h : bucketing? t = some (b, rest)) : Outside s rest := by
  simp only [bucketing?, Option.bind_eq_bind, Option.bind_eq_some_iff] at h
  obtain ⟨t₁, h₁, t₂, h₂, ⟨field, t₃⟩, h₃, t₄, h₄, ⟨amount, t₅⟩, h₅, ⟨unit, t₆⟩, h₆, t₇, h₇, h⟩ := h
  simp only [Option.pure_def, Option.some.injEq, Prod.mk.injEq] at h
  obtain ⟨-, rfl⟩ := h
  refine outside_optionalAlias (outside_of_skipChar? (by decide) (by decide) ?_ h₇)
  refine (skipBlanks_suffix t₆).trans ((leaves_of_append (run?_append h₆)).suffix.trans ?_)
  refine (skipBlanks_suffix t₅).trans ((amount?_leaves h₅).suffix.trans ?_)
  refine (skipBlanks_suffix t₄).trans ((skipChar?_leaves h₄).suffix.trans ?_)
  refine (skipBlanks_suffix t₃).trans ((leaves_of_append (name?_append h₃)).suffix.trans ?_)
  refine (skipBlanks_suffix t₂).trans ((skipChar?_leaves h₂).suffix.trans ?_)
  exact (skipBlanks_suffix t₁).trans ((skipKeyword?_suffix h₁).trans ht)

theorem outside_comma_cons {s : List Char} {x : Cell} (h : x :: t <:+ mask s) (hx : x.face = ',') :
    Outside s t := by
  have ho : Outside s ([x] ++ t) := outside_cons h (by rw [hx]; decide) (by rw [hx]; rfl)
  refine (ho.append fun y hy => ?_).2
  rw [List.mem_singleton.1 hy, hx]
  rfl

theorem quoteAfter_of_unquoted {q : Option Char} (hq : NamesQuote q) {w : List Char}
    (h : ∀ c ∈ w, isQuote c = false) : quoteAfter q w = q := by
  cases q with
  | none => exact balanced_of_unquoted h
  | some q =>
    refine quoteAfter_some_of_notMem fun hm => ?_
    have := h q hm
    rw [hq.isQuote] at this
    cases this

/-- A part without quotes before a place outside quoted runs stands outside quoted runs too. -/
theorem Outside.of_append {s : List Char} {a b : List Cell} (h : a ++ b <:+ mask s)
    (ha : ∀ x ∈ a, isQuote x.face = false) (hb : Outside s b) : Outside s (a ++ b) := by
  obtain ⟨front, hfront⟩ := h
  obtain ⟨s₁, s₂, hs, hbal, rfl⟩ := hb
  have hmask : front ++ a = mask s₁ := by
    rw [hs, mask_append hbal, ← List.append_assoc] at hfront
    exact List.append_cancel_right hfront
  have hclosed : quoteAfter none (faces front) = none := by
    have hall : quoteAfter none (faces (front ++ a)) = none := by
      rw [hmask, mask, quoteAfter_faces_maskFrom namesQuote_none]
      exact hbal
    rw [faces_append, quoteAfter_append, quoteAfter_of_unquoted (namesQuote_none.after _)] at hall
    · exact hall
    · intro c hc
      obtain ⟨x, hx, rfl⟩ := List.mem_map.1 hc
      exact ha x hx
  obtain ⟨u, v, rfl, hu, -, hv⟩ := mask_eq_append hfront.symm hclosed
  exact ⟨u, v, rfl, hu, hv⟩

/-- Before a comma a list stands outside quoted runs. -/
theorem outside_of_comma {s : List Char} (h : t <:+ mask s) (hc : commaFollows t = true) :
    Outside s t := by
  have hsplit := List.takeWhile_append_dropWhile (p := Cell.isGap) (l := t)
  have hout := Outside.of_append (by rwa [hsplit])
    (fun x hx => isQuote_of_isGap (List.mem_takeWhile_imp hx)) (outside_of_commaFollows h hc)
  rwa [hsplit] at hout

/-! ## What shows in a run -/

/-- A run is its first field, with the white space and the commas before it, and the rest. -/
theorem upTo_runEnd (h : field? (t.dropWhile Cell.isGap) = some (name, rest)) :
    upTo t (runEnd rest) = t.takeWhile Cell.isGap ++ (name ++ upTo rest (runEnd rest)) := by
  apply upTo_eq_of_append
  rw [List.append_assoc, List.append_assoc, upTo_append_of_suffix (runEnd_suffix rest),
    ← (name?_append h).2, List.takeWhile_append_dropWhile]

/-- A run holds more than white space. -/
theorem exists_nonblank_of_firstRun? (h : firstRun? t = some rest) :
    ∃ y ∈ upTo t rest, y.isBlank = false := by
  obtain ⟨⟨name, r⟩, hf, rfl⟩ := Option.map_eq_some_iff.1 h
  obtain ⟨front, y, hname, hy⟩ := exists_concat_of_field? hf
  rw [Cell.isGap, Bool.or_eq_false_iff] at hy
  refine ⟨y, ?_, hy.1⟩
  show y ∈ upTo t (runEnd r)
  rw [upTo_runEnd hf, hname]
  simp

theorem face_ne_parenthesis_of_isGap {x : Cell} (h : x.isGap = true) : x.face ≠ '(' := by
  intro hx
  rw [Cell.isGap, Cell.isBlank, hx] at h
  cases h

/-- No parenthesis shows between a field of a run and the end of the run. -/
theorem face_ne_of_mem_runEnd {s : List Char} (ht : t <:+ mask s) :
    ∀ x ∈ upTo t (runEnd t), x.face ≠ '(' := by
  fun_induction runEnd t with
  | case1 t name rest h ih =>
    obtain ⟨hc, hf⟩ := nextField?_eq_some_iff.1 h
    rw [upTo_runEnd hf, List.forall_mem_append, List.forall_mem_append]
    refine ⟨fun x hx => face_ne_parenthesis_of_isGap (List.mem_takeWhile_imp hx), ?_,
      ih ((nextField?_leaves h).suffix.trans ht)⟩
    exact face_ne_of_field? (outside_of_commaFollows ht hc) hf (by decide) (by decide) rfl
  | case2 t h =>
    obtain ⟨commas, gap, hcommas, -, hgaps, -⟩ := exists_append_afterCommas t
    rw [upTo_eq_of_append hcommas]
    exact fun x hx => face_ne_parenthesis_of_isGap (hgaps x (List.mem_append_left _ hx))

/-- No parenthesis shows in a run. -/
theorem face_ne_of_firstRun? {s : List Char} (ht : Outside s t) (h : firstRun? t = some rest) :
    ∀ x ∈ upTo t rest, x.face ≠ '(' := by
  obtain ⟨⟨name, r⟩, hf, rfl⟩ := Option.map_eq_some_iff.1 h
  have hout : Outside s (t.dropWhile Cell.isGap) := ht.dropWhile fun _ => isQuote_of_isGap
  show ∀ x ∈ upTo t (runEnd r), x.face ≠ '('
  rw [upTo_runEnd hf, List.forall_mem_append, List.forall_mem_append]
  refine ⟨fun x hx => face_ne_parenthesis_of_isGap (List.mem_takeWhile_imp hx), ?_, ?_⟩
  · exact face_ne_of_field? hout hf (by decide) (by decide) rfl
  · exact face_ne_of_mem_runEnd ((leaves_of_append (name?_append hf)).suffix.trans hout.suffix)

/-- A character begins behind a run. -/
theorem begins_runEnd {s : List Char} (ht : t <:+ mask s) (hb : Begins t) : Begins (runEnd t) := by
  fun_induction runEnd t with
  | case1 t name rest h ih =>
    obtain ⟨hc, hf⟩ := nextField?_eq_some_iff.1 h
    exact ih ((nextField?_leaves h).suffix.trans ht)
      (begins_of_field? (outside_of_commaFollows ht hc) hf)
  | case2 t h =>
    obtain ⟨commas, -, hcommas, -, -, ⟨-, rfl⟩ | ⟨-, front, x, rfl, hx⟩⟩ :=
      exists_append_afterCommas t
    · rw [List.nil_append] at hcommas
      rwa [← hcommas]
    · obtain ⟨before, hbefore⟩ := ht
      have hsplit : maskFrom none s = (before ++ front) ++ x :: afterCommas t := by
        rw [← mask, ← hbefore]
        conv_lhs => rw [hcommas]
        simp
      exact begins_of_face_ne hsplit (by rw [hx]; decide)

theorem begins_of_firstRun? {s : List Char} (ht : Outside s t) (h : firstRun? t = some rest) :
    Begins rest := by
  obtain ⟨⟨name, r⟩, hf, rfl⟩ := Option.map_eq_some_iff.1 h
  have hout : Outside s (t.dropWhile Cell.isGap) := ht.dropWhile fun _ => isQuote_of_isGap
  exact begins_runEnd ((leaves_of_append (name?_append hf)).suffix.trans hout.suffix)
    (begins_of_field? hout hf)

end

end QueryStats.Query
