import QueryStats.Proofs.Capture
import QueryStats.Proofs.Offsets

/-!
# Reading text back

A part of a query that is found on its masked text is read back from the query at the same byte
offsets.  Masked text is as long as the query, byte for byte (`width_maskFrom`), but it has places
that the query has not: inside a hidden character.  Reading back fails there, and where what is read
does not show as it showed under the mask (`readBack?`).  It succeeds for a part that starts outside
quoted runs and ends where a character begins (`readBack?_of_split`).
-/

namespace QueryStats.Query

open Text
open String (utf8Len utf8Len_append utf8Len_cons)

/-! ## Widths -/

/-- The number of bytes that masked text shows. -/
def width (t : List Cell) : Nat := utf8Len (faces t)

@[simp] theorem width_nil : width [] = 0 := rfl

@[simp] theorem width_append (s t : List Cell) : width (s ++ t) = width s + width t := by
  rw [width, faces_append, utf8Len_append, width, width]

@[simp] theorem width_cons (x : Cell) (t : List Cell) :
    width (x :: t) = x.face.utf8Size + width t := by
  rw [width, faces_cons, utf8Len_cons, width, Nat.add_comm]

theorem width_pos {t : List Cell} (h : t ≠ []) : 0 < width t := by
  cases t with
  | nil => exact absurd rfl h
  | cons x t =>
    have := x.face.utf8Size_pos
    rw [width_cons]
    omega

theorem length_le_width (t : List Cell) : t.length ≤ width t := by
  induction t with
  | nil => exact Nat.le_refl _
  | cons x t ih =>
    have := x.face.utf8Size_pos
    rw [width_cons, List.length_cons]
    omega

theorem width_le_of_suffix {s t : List Cell} (h : s <:+ t) : width s ≤ width t := by
  obtain ⟨a, rfl⟩ := h
  rw [width_append]
  omega

theorem width_hidden (c : Char) : width (hidden c) = c.utf8Size := by
  rw [width, faces_hidden, utf8Len_blanks]

/-- Masked text is as long as the text it stands for. -/
theorem width_maskFrom (q : Option Char) (t : List Char) : width (maskFrom q t) = utf8Len t := by
  induction t generalizing q with
  | nil => cases q <;> rfl
  | cons c t ih =>
    rw [utf8Len_cons, Nat.add_comm]
    cases q with
    | none => rw [maskFrom_none_cons, width_cons, ih, face_plain]
    | some q =>
      by_cases hc : c = q
      · subst hc
        rw [maskFrom_self_cons, width_cons, ih, face_plain]
      · rw [maskFrom_hidden_cons hc, width_append, ih, width_hidden]

theorem width_mask (t : List Char) : width (mask t) = utf8Len t := width_maskFrom none t

/-! ## Slices -/

/-- A range of byte offsets. -/
structure Range where
  start : Nat
  stop : Nat
  deriving DecidableEq, Repr

/-- Masked text cut in two at an offset; `none` where the offset is no place of what it shows. -/
def cut? (scan : List Cell) (pos : Nat) : Option (List Cell × List Cell) :=
  (splitAtByte? [] (faces scan) pos).map fun parts => scan.splitAt parts.1.length

/-- The part of masked text at a range of offsets; `none` where the range is reversed or an end of
it is no place. -/
def cells? (scan : List Cell) (r : Range) : Option (List Cell) := do
  let (_, t) ← cut? scan r.start
  let (part, _) ← cut? t (r.stop - r.start)
  if r.start ≤ r.stop then some part else none

/-- The part of a text at a range of offsets; `none` where the range is reversed or an end of it is
no place of the text. -/
def slice? (text : String) (r : Range) : Option String := do
  let (_, t) ← splitAtByte? [] text.toList r.start
  let (part, _) ← splitAtByte? [] t (r.stop - r.start)
  if r.start ≤ r.stop then some (String.ofList part.reverse) else none

/-- The part of a text at a range that was found on its masked form; `none` where either has no
slice there, or where the part does not show under the mask what showed at the range. -/
def readBack? (source : String) (scan : List Cell) (r : Range) : Option String := do
  let text ← slice? source r
  let found ← cells? scan r
  if blankQuoted text = String.ofList (faces found) then some text else none

theorem cut?_eq_some_iff {scan front rest : List Cell} {pos : Nat} :
    cut? scan pos = some (front, rest) ↔ scan = front ++ rest ∧ width front = pos := by
  rw [cut?, Option.map_eq_some_iff]
  constructor
  · rintro ⟨⟨before, after⟩, h, hsplit⟩
    obtain ⟨s, rfl, hs, rfl⟩ := splitAtByte?_eq_some_iff.1 h
    rw [List.append_nil, List.length_reverse, List.splitAt_eq, Prod.mk.injEq] at hsplit
    obtain ⟨rfl, rfl⟩ := hsplit
    refine ⟨(List.take_append_drop _ _).symm, ?_⟩
    rw [width, faces, List.map_take]
    change utf8Len ((faces scan).take s.length) = utf8Len s
    rw [hs, List.take_left]
  · rintro ⟨rfl, rfl⟩
    refine ⟨((faces front).reverse, faces rest), ?_, ?_⟩
    · rw [faces_append]
      exact splitAtByte?_append _ _
    · rw [List.length_reverse, faces, List.length_map, List.splitAt_eq, List.take_left,
        List.drop_left]

theorem cut?_append (front rest : List Cell) :
    cut? (front ++ rest) (width front) = some (front, rest) := cut?_eq_some_iff.2 ⟨rfl, rfl⟩

theorem cells?_eq_some_iff {scan part : List Cell} {r : Range} :
    cells? scan r = some part ↔ ∃ front rest, scan = front ++ (part ++ rest) ∧
      width front = r.start ∧ r.start + width part = r.stop := by
  simp only [cells?, Option.bind_eq_bind, Option.bind_eq_some_iff, Prod.exists, cut?_eq_some_iff,
    Option.ite_none_right_eq_some, Option.some.injEq]
  constructor
  · rintro ⟨front, t, ⟨rfl, hstart⟩, part', rest, ⟨rfl, hlen⟩, hle, rfl⟩
    exact ⟨front, rest, rfl, hstart, by omega⟩
  · rintro ⟨front, rest, rfl, hstart, hstop⟩
    exact ⟨front, part ++ rest, ⟨rfl, hstart⟩, part, rest, ⟨rfl, by omega⟩, by omega, rfl⟩

theorem slice?_eq_some_iff {text part : String} {r : Range} :
    slice? text r = some part ↔ ∃ front rest, text.toList = front ++ (part.toList ++ rest) ∧
      utf8Len front = r.start ∧ r.start + utf8Len part.toList = r.stop := by
  simp only [slice?, Option.bind_eq_bind, Option.bind_eq_some_iff, Prod.exists,
    splitAtByte?_eq_some_iff, Option.ite_none_right_eq_some, Option.some.injEq, List.append_nil]
  constructor
  · rintro ⟨-, t, ⟨front, -, ht, hstart⟩, -, rest, ⟨part', rfl, rfl, hlen⟩, hle, rfl⟩
    refine ⟨front, rest, ?_, hstart, ?_⟩
    · rw [List.reverse_reverse, String.toList_ofList, ht]
    · rw [List.reverse_reverse, String.toList_ofList]
      omega
  · rintro ⟨front, rest, ht, hstart, hstop⟩
    refine ⟨_, _, ⟨front, rfl, ht, hstart⟩, _, rest, ⟨part.toList, rfl, rfl, by omega⟩, by omega,
      ?_⟩
    rw [List.reverse_reverse, String.ofList_toList]

theorem cells?_append (front part rest : List Cell) :
    cells? (front ++ (part ++ rest)) ⟨width front, width front + width part⟩ = some part :=
  cells?_eq_some_iff.2 ⟨front, rest, rfl, rfl, rfl⟩

/-! ## Where characters begin -/

/-- Whether a character of the query begins at the front of masked text. -/
def Begins (t : List Cell) : Prop := ∀ x ∈ t.head?, x.source ≠ none

theorem begins_nil : Begins [] := nofun

theorem begins_maskFrom (q : Option Char) (t : List Char) : Begins (maskFrom q t) := by
  cases t with
  | nil => cases q <;> exact begins_nil
  | cons c t =>
    have hplain : ∀ u, Begins (.plain c :: u) := fun u x hx => by
      rw [← Option.some.inj hx]
      exact Option.some_ne_none c
    cases q with
    | none => exact hplain _
    | some q =>
      by_cases hc : c = q
      · subst hc
        rw [maskFrom_self_cons]
        exact hplain _
      · rw [maskFrom_hidden_cons hc]
        intro x hx
        rw [← Option.some.inj hx]
        exact Option.some_ne_none c

theorem Outside.begins {s : List Char} {t : List Cell} (h : Outside s t) : Begins t := by
  obtain ⟨-, s₂, -, -, rfl⟩ := h
  exact begins_maskFrom none s₂

/-- A character begins behind a cell that shows something. -/
theorem begins_of_face_ne {q : Option Char} {s : List Char} {a b : List Cell} {x : Cell}
    (h : maskFrom q s = a ++ x :: b) (hx : x.face ≠ ' ') : Begins b := by
  induction s generalizing q a with
  | nil => cases q <;> simp [maskFrom] at h
  | cons c s ih =>
    have hplain {r : Option Char} (h : .plain c :: maskFrom r s = a ++ x :: b) : Begins b := by
      cases a with
      | nil =>
        obtain ⟨-, rfl⟩ := List.cons.inj h
        exact begins_maskFrom r s
      | cons y a => exact ih (List.cons.inj h).2
    cases q with
    | none => exact hplain h
    | some q =>
      by_cases hc : c = q
      · subst hc
        rw [maskFrom_self_cons] at h
        exact hplain h
      · rw [maskFrom_hidden_cons hc, List.append_eq_append_iff] at h
        rcases h with ⟨a', rfl, h⟩ | ⟨b', hb, h⟩
        · exact ih h
        · cases b' with
          | nil => exact ih (a := []) h.symm
          | cons y b' =>
            obtain ⟨rfl, -⟩ := List.cons.inj h
            exact absurd (face_of_mem_hidden (c := c) (by rw [hb]; simp)) hx

/-- Masked text is cut into the masks of two texts where a character begins. -/
theorem maskFrom_eq_append_of_begins {q : Option Char} {s : List Char} {a b : List Cell}
    (h : maskFrom q s = a ++ b) (hb : Begins b) :
    ∃ s₁ s₂, s = s₁ ++ s₂ ∧ a = maskFrom q s₁ ∧ b = maskFrom (quoteAfter q s₁) s₂ := by
  induction s generalizing q a with
  | nil =>
    have h' : a ++ b = [] := by rw [← h]; cases q <;> rfl
    obtain ⟨rfl, rfl⟩ := List.append_eq_nil_iff.1 h'
    exact ⟨[], [], rfl, by cases q <;> rfl, by cases q <;> rfl⟩
  | cons c s ih =>
    cases a with
    | nil => exact ⟨[], c :: s, rfl, by cases q <;> rfl, h.symm⟩
    | cons y a =>
      cases q with
      | none =>
        obtain ⟨rfl, ht⟩ := List.cons.inj h
        obtain ⟨s₁, s₂, rfl, rfl, rfl⟩ := ih ht
        exact ⟨c :: s₁, s₂, rfl, rfl, rfl⟩
      | some q =>
        by_cases hc : c = q
        · subst hc
          rw [maskFrom_self_cons] at h
          obtain ⟨rfl, ht⟩ := List.cons.inj h
          obtain ⟨s₁, s₂, rfl, rfl, rfl⟩ := ih ht
          refine ⟨c :: s₁, s₂, rfl, (maskFrom_self_cons _ _).symm, ?_⟩
          rw [quoteAfter_cons, nextQuote, if_pos rfl]
        · rw [maskFrom_hidden_cons hc, List.append_eq_append_iff] at h
          rcases h with ⟨a', ha, h⟩ | ⟨b', hb', hrest⟩
          · obtain ⟨s₁, s₂, rfl, rfl, rfl⟩ := ih h
            refine ⟨c :: s₁, s₂, rfl, by rw [ha, maskFrom_hidden_cons hc], ?_⟩
            rw [quoteAfter_cons, nextQuote, if_neg hc]
          · cases b' with
            | nil =>
              refine ⟨[c], s, rfl, ?_, ?_⟩
              · rw [maskFrom_hidden_cons hc, hb', List.append_nil]
                simp [maskFrom]
              · rw [hrest, quoteAfter_cons, nextQuote, if_neg hc]
                rfl
            | cons z b' =>
              -- Behind the first cell of a hidden character no character begins in it.
              have hz : z ∈ List.replicate (c.utf8Size - 1) (⟨' ', none⟩ : Cell) := by
                rw [(List.cons.inj hb').2]
                simp
              rw [hrest] at hb
              exact absurd (by rw [List.eq_of_mem_replicate hz]) (hb z rfl)

/-! ## Reading back -/

/-- Whether a range is read back exactly: its ends are places of the text, and what stands between
them there shows under the mask what the masked text shows at the range. -/
structure ReadsBack (source : String) (r : Range) (text : String) : Prop where
  start_le_stop : r.start ≤ r.stop
  stop_le : r.stop ≤ source.utf8ByteSize
  isValid_start : String.Pos.Raw.IsValid source ⟨r.start⟩
  isValid_stop : String.Pos.Raw.IsValid source ⟨r.stop⟩
  slice : slice? source r = some text
  shows : slice? (blankQuoted source) r = some (blankQuoted text)

theorem slice?_of_cells? {scan part : List Cell} {r : Range} (h : cells? scan r = some part) :
    slice? (String.ofList (faces scan)) r = some (String.ofList (faces part)) := by
  obtain ⟨front, rest, rfl, hstart, hstop⟩ := cells?_eq_some_iff.1 h
  refine slice?_eq_some_iff.2 ⟨faces front, faces rest, ?_, hstart, ?_⟩
  · rw [String.toList_ofList, String.toList_ofList, faces_append, faces_append]
  · rw [String.toList_ofList]
    exact hstop

/-- What is read back is read back exactly. -/
theorem readsBack_of_readBack? {source text : String} {r : Range}
    (h : readBack? source (mask source.toList) r = some text) : ReadsBack source r text := by
  simp only [readBack?, Option.bind_eq_bind, Option.bind_eq_some_iff, Option.ite_none_right_eq_some,
    Option.some.injEq] at h
  obtain ⟨text, hslice, found, hfound, hshows, rfl⟩ := h
  obtain ⟨front, rest, ht, hstart, hstop⟩ := slice?_eq_some_iff.1 hslice
  refine ⟨?_, ?_, ?_, ?_, hslice, ?_⟩
  · omega
  · rw [← source.ofList_toList, String.utf8ByteSize_ofList, ht, utf8Len_append, utf8Len_append]
    omega
  · exact isValid_iff.2 ⟨_, front, ht, hstart⟩
  · refine isValid_iff.2 ⟨rest, front ++ text.toList, ?_, ?_⟩
    · rw [ht, List.append_assoc]
    · rw [utf8Len_append, hstart, hstop]
  · rw [hshows]
    exact slice?_of_cells? hfound

/-- A part of masked text that starts outside quoted runs and ends where a character begins is read
back. -/
theorem readBack?_of_split {source : String} {before text after : List Cell}
    (hsplit : before ++ (text ++ after) = mask source.toList)
    (hout : Outside source.toList (text ++ after)) (hafter : Begins after) :
    readBack? source (mask source.toList) ⟨width before, width before + width text⟩ =
      some (sourceText text) := by
  obtain ⟨s₁, s₂, hs, hbal, hmask⟩ := hout
  obtain ⟨t, u, rfl, rfl, rfl⟩ := maskFrom_eq_append_of_begins hmask.symm hafter
  have hbefore : before = mask s₁ := by
    rw [hs, mask_append hbal, ← hmask] at hsplit
    exact List.append_cancel_right hsplit
  have hsources : sourceText (maskFrom none t) = String.ofList t := by
    rw [sourceText, sources_maskFrom]
  have hslice : slice? source ⟨width before, width before + width (maskFrom none t)⟩ =
      some (String.ofList t) := by
    refine slice?_eq_some_iff.2 ⟨s₁, u, ?_, ?_, ?_⟩
    · rw [String.toList_ofList, hs]
    · rw [hbefore, width_mask]
    · rw [String.toList_ofList, width_maskFrom]
  rw [readBack?, hslice, ← hsplit, cells?_append, hsources]
  simp [blankQuoted, mask]

/-- A quoted run is read back, but not its body, and nothing from the middle of a character. -/
example : readBack? "'é'" (mask "'é'".toList) ⟨0, 4⟩ = some "'é'" ∧
    readBack? "'é'" (mask "'é'".toList) ⟨1, 3⟩ = none ∧
    readBack? "'é'" (mask "'é'".toList) ⟨2, 4⟩ = none := by decide +kernel

end QueryStats.Query
