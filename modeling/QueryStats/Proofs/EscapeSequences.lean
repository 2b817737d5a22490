import QueryStats.Proofs.Fitting

/-!
# Escape sequences of a cut line

A line is made of visible characters and of whole escape sequences (`parts`): an escape character
with `[` behind it and all that follows through the first letter, or else the escape character
alone.  Counting (`visibleLength_eq`) and cutting (`keepVisible_glyphs`) both go by these parts.

A cut leaves out parts in the middle of a line, so an escape character that stood alone gets a new
neighbour.  That is another part's escape character or the ellipsis, never a `[`
(`head_text_keepFirst`); so a cut line is read back as the parts that were kept (`parts_cut`), each
under the colours it had.
-/

namespace QueryStats.Terminal

/-! ## The parts of a line -/

/-- A part of a line. -/
inductive Part where
  | char (c : Char)
  /-- An escape sequence, given by all of its characters. -/
  | sequence (text : List Char)
  deriving DecidableEq, Repr

namespace Part

def text : Part → List Char
  | char c => [c]
  | sequence t => t

def char? : Part → Option Char
  | char c => some c
  | sequence _ => none

def sequence? : Part → Option (List Char)
  | char _ => none
  | sequence t => some t

/-- Whether a part comes to its end: a sequence with `[` is one through a letter. -/
def Ended : Part → Prop
  | char _ => True
  | sequence t => t = [escape] ∨ ∃ c ∈ t.getLast?, c.isAlpha = true

end Part

/-- A text cut in two behind its first letter; the first part is all of a text without letters. -/
def throughLetter : List Char → List Char × List Char
  | [] => ([], [])
  | c :: t =>
    if c.isAlpha then ([c], t)
    else
      let (front, back) := throughLetter t
      (c :: front, back)

theorem throughLetter_append (t : List Char) : (throughLetter t).1 ++ (throughLetter t).2 = t := by
  induction t with
  | nil => rfl
  | cons c t ih =>
    rw [throughLetter]
    split
    · rfl
    · exact congrArg (c :: ·) ih

theorem length_throughLetter_le (t : List Char) : (throughLetter t).2.length ≤ t.length := by
  have h := congrArg List.length (throughLetter_append t)
  rw [List.length_append] at h
  omega

/-- The parts that a line is made of. -/
def parts : List Char → List Part
  | [] => []
  | '\x1b' :: '[' :: t =>
    .sequence (escape :: '[' :: (throughLetter t).1) :: parts (throughLetter t).2
  | c :: t => (if c = escape then .sequence [escape] else .char c) :: parts t
termination_by line => line.length
decreasing_by
  · have := length_throughLetter_le t
    simp only [List.length_cons]
    omega
  · simp only [List.length_cons]
    omega

@[simp] theorem parts_nil : parts [] = [] := by
  rw [parts]

theorem parts_bracket (t : List Char) :
    parts (escape :: '[' :: t) =
      .sequence (escape :: '[' :: (throughLetter t).1) :: parts (throughLetter t).2 := by
  rw [parts]

theorem parts_alone {t : List Char} (h : '[' ∉ t.head?) :
    parts (escape :: t) = .sequence [escape] :: parts t := by
  rw [parts, if_pos rfl]
  rintro t' - rfl
  exact h rfl

theorem parts_char {c : Char} (hc : c ≠ escape) (t : List Char) :
    parts (c :: t) = .char c :: parts t := by
  rw [parts, if_neg hc]
  intro t' h
  exact absurd h hc

/-- Induction over the parts of a line. -/
@[elab_as_elim]
theorem parts_induction {motive : List Char → Prop} (nil : motive [])
    (bracket : ∀ t, motive (throughLetter t).2 → motive (escape :: '[' :: t))
    (alone : ∀ t, '[' ∉ t.head? → motive t → motive (escape :: t))
    (char : ∀ c t, c ≠ escape → motive t → motive (c :: t)) (line : List Char) : motive line := by
  fun_induction parts line with
  | case1 => exact nil
  | case2 t ih => exact bracket t ih
  | case3 c t hne ih =>
    by_cases hc : c = escape
    · subst hc
      refine alone t (fun h => ?_) ih
      obtain ⟨t', rfl⟩ := List.head?_eq_some_iff.1 h
      exact hne t' rfl rfl
    · exact char c t hc ih

/-- The visible characters of a line. -/
def visibleText (line : List Char) : List Char := (parts line).filterMap Part.char?

/-- The escape sequences of a line. -/
def sequences (line : List Char) : List (List Char) := (parts line).filterMap Part.sequence?

/-- Whether every sequence of a line comes to its end. -/
def Terminated (line : List Char) : Prop := ∀ p ∈ parts line, p.Ended

/-! ## Counting and cutting by parts -/

/-- The characters of a part, each visible or not. -/
def Part.glyphs : Part → List Glyph
  | char c => [⟨c, true⟩]
  | sequence t => t.map (⟨·, false⟩)

theorem glyphsFrom_opened {t : List Char} (h : '[' ∉ t.head?) :
    glyphsFrom .opened t = glyphs t := by
  cases t with
  | nil => rfl
  | cons c t =>
    have hc : c ≠ '[' := fun e => h (congrArg some e)
    have hnext : Within.opened.next c = Within.text.next c := by
      unfold Within.next
      split
      · contradiction
      · exact absurd rfl hc
      · rfl
    rw [glyphs, glyphsFrom_cons, glyphsFrom_cons, hnext]

/-- A sequence with `[` hides its characters through the first letter. -/
theorem glyphsFrom_sequence (t : List Char) :
    glyphsFrom .sequence t =
      (throughLetter t).1.map (⟨·, false⟩) ++ glyphs (throughLetter t).2 := by
  induction t with
  | nil => rfl
  | cons c t ih =>
    rw [glyphsFrom_cons, throughLetter]
    split
    · next hc => simp [Within.next, hc, glyphs]
    · next hc => simp [Within.next, hc, ih]

/-- The characters of a line are those of its parts: the visible ones are parts by themselves. -/
theorem glyphs_eq (line : List Char) : glyphs line = (parts line).flatMap Part.glyphs := by
  induction line using parts_induction with
  | nil => rw [parts_nil, List.flatMap_nil, glyphs, glyphsFrom_nil]
  | bracket t ih =>
    rw [parts_bracket, List.flatMap_cons, ← ih]
    exact congrArg (⟨escape, false⟩ :: ⟨'[', false⟩ :: ·) (glyphsFrom_sequence t)
  | alone t h ih =>
    rw [parts_alone h, List.flatMap_cons, ← ih]
    exact congrArg (⟨escape, false⟩ :: ·) (glyphsFrom_opened h)
  | char c t hc ih =>
    rw [parts_char hc, List.flatMap_cons, ← ih, glyphs, glyphsFrom_cons, Within.next_text hc]
    rfl

theorem countP_glyphs (p : Part) : p.glyphs.countP Glyph.visible = p.char?.toList.length := by
  cases p with
  | char c => rfl
  | sequence t => simp [Part.glyphs, Part.char?, List.countP_eq_zero]

theorem visibleLength_eq (line : List Char) : visibleLength line = (visibleText line).length := by
  rw [visibleLength, glyphs_eq, visibleText]
  induction parts line with
  | nil => rfl
  | cons p ps ih =>
    rw [List.flatMap_cons, List.countP_append, ih, countP_glyphs]
    cases p with
    | char c => exact Nat.add_comm _ _
    | sequence t => exact Nat.zero_add _

/-- The parts of a line without its characters but the first few. -/
def keepFirst : Nat → List Part → List Part
  | _, [] => []
  | n, .sequence t :: ps => .sequence t :: keepFirst n ps
  | 0, .char _ :: ps => keepFirst 0 ps
  | n + 1, .char c :: ps => .char c :: keepFirst n ps

theorem keepVisible_hidden (n : Nat) (t : List Char) (gs : List Glyph) :
    keepVisible n (t.map (⟨·, false⟩) ++ gs) = t ++ keepVisible n gs := by
  induction t with
  | nil => rfl
  | cons c t ih => cases n <;> exact congrArg (c :: ·) ih

theorem keepVisible_glyphs (n : Nat) (line : List Char) :
    keepVisible n (glyphs line) = (keepFirst n (parts line)).flatMap Part.text := by
  rw [glyphs_eq]
  fun_induction keepFirst n (parts line) with
  | case1 n => rfl
  | case2 n t ps ih =>
    rw [List.flatMap_cons, List.flatMap_cons, ← ih, Part.glyphs, keepVisible_hidden, Part.text]
  | case3 c ps ih => exact ih
  | case4 n c ps ih => exact congrArg (c :: ·) ih

/-! ## Reading a cut line -/

/-- A sequence that ends with a letter is read in full, whatever follows it. -/
theorem throughLetter_append_of_ended {t : List Char}
    (h : ∃ c ∈ (throughLetter t).1.getLast?, c.isAlpha = true) (u : List Char) :
    throughLetter ((throughLetter t).1 ++ u) = ((throughLetter t).1, u) := by
  induction t with
  | nil => simp [throughLetter] at h
  | cons c t ih =>
    rw [throughLetter] at h ⊢
    by_cases hc : c.isAlpha = true
    · simp [throughLetter, hc]
    · simp only [if_neg hc] at h ⊢
      have hlast : ∃ d ∈ (throughLetter t).1.getLast?, d.isAlpha = true := by
        cases hf : (throughLetter t).1 with
        | nil => simp [hf, hc] at h
        | cons d f => simpa [hf, List.getLast?_cons_cons] using h
      rw [List.cons_append, throughLetter, if_neg hc, ih hlast]

theorem Part.Ended.exists_letter {t : List Char} (h : (sequence (escape :: '[' :: t)).Ended) :
    ∃ c ∈ t.getLast?, c.isAlpha = true := by
  rcases h with h | ⟨c, hc, ha⟩
  · simp at h
  · cases t with
    | nil =>
      obtain rfl : '[' = c := by simpa using hc
      cases ha
    | cons d t => exact ⟨c, by simpa [List.getLast?_cons_cons] using hc, ha⟩

/-- What is kept of a line does not start with `[`, if the line does not or if none of its visible
characters is kept. -/
theorem head_text_keepFirst {n : Nat} {line tail : List Char} (h : n = 0 ∨ '[' ∉ line.head?)
    (ht : '[' ∉ tail.head?) :
    '[' ∉ ((keepFirst n (parts line)).flatMap Part.text ++ tail).head? := by
  have hescape : '[' ∉ some escape := by decide
  induction line using parts_induction with
  | nil => rwa [parts_nil, keepFirst]
  | bracket t _ =>
    rw [parts_bracket, keepFirst]
    exact hescape
  | alone t halone _ =>
    rw [parts_alone halone, keepFirst]
    exact hescape
  | char c t hc ih =>
    rw [parts_char hc]
    cases n with
    | zero => exact ih (Or.inl rfl)
    | succ n =>
      rw [keepFirst]
      exact h.resolve_left n.succ_ne_zero

/-- What is kept of a line is read as the parts that were kept, and what follows it as before. -/
theorem parts_text_keepFirst {line tail : List Char} (hl : Terminated line)
    (ht : '[' ∉ tail.head?) (n : Nat) :
    parts ((keepFirst n (parts line)).flatMap Part.text ++ tail) =
      keepFirst n (parts line) ++ parts tail := by
  unfold Terminated at hl
  induction line using parts_induction generalizing n with
  | nil => rw [parts_nil, keepFirst, List.flatMap_nil, List.nil_append, List.nil_append]
  | bracket t ih =>
    rw [parts_bracket, List.forall_mem_cons] at hl
    rw [parts_bracket, keepFirst, List.flatMap_cons, Part.text, List.cons_append, List.cons_append,
      List.cons_append, List.cons_append, List.append_assoc, parts_bracket,
      throughLetter_append_of_ended hl.1.exists_letter, ih hl.2, List.cons_append]
  | alone t h ih =>
    rw [parts_alone h, List.forall_mem_cons] at hl
    -- The new neighbour of the escape character is no `[` either.
    rw [parts_alone h, keepFirst, List.flatMap_cons, Part.text, List.append_assoc,
      List.singleton_append, parts_alone (head_text_keepFirst (Or.inr h) ht), ih hl.2,
      List.cons_append]
  | char c t hc ih =>
    rw [parts_char hc, List.forall_mem_cons] at hl
    rw [parts_char hc]
    cases n with
    | zero => exact ih hl.2 0
    | succ n =>
      rw [keepFirst, List.flatMap_cons, Part.text, List.append_assoc, List.singleton_append,
        parts_char hc, ih hl.2, List.cons_append]

theorem parts_cutEnd : parts (ellipsis :: plain) = [.char ellipsis, .sequence plain] := by
  have hplain : throughLetter ['0', 'm'] = (['0', 'm'], []) := rfl
  rw [parts_char (by decide), plain, parts_bracket, hplain, parts_nil]

/-- The parts of a cut line are those that were kept, the ellipsis and the sequence that restores
the plain colour. -/
theorem parts_cut {line : List Char} (hl : Terminated line) (width : Nat) :
    parts (cut width line) =
      keepFirst (width - 1) (parts line) ++ [.char ellipsis, .sequence plain] := by
  rw [cut, keepVisible_glyphs, parts_text_keepFirst hl (by decide), parts_cutEnd]

/-! ## What a cut keeps -/

theorem filterMap_char?_keepFirst (n : Nat) (ps : List Part) :
    (keepFirst n ps).filterMap Part.char? = (ps.filterMap Part.char?).take n := by
  fun_induction keepFirst n ps with
  | case1 n => exact List.take_nil.symm
  | case2 n t ps ih => exact ih
  | case3 c ps ih => exact ih
  | case4 n c ps ih => exact congrArg (c :: ·) ih

theorem filterMap_sequence?_keepFirst (n : Nat) (ps : List Part) :
    (keepFirst n ps).filterMap Part.sequence? = ps.filterMap Part.sequence? := by
  fun_induction keepFirst n ps with
  | case1 n => rfl
  | case2 n t ps ih => exact congrArg (t :: ·) ih
  | case3 c ps ih => exact ih
  | case4 n c ps ih => exact ih

theorem keepFirst_zero (ps : List Part) :
    keepFirst 0 ps = (ps.filterMap Part.sequence?).map Part.sequence := by
  induction ps with
  | nil => rfl
  | cons p ps ih =>
    cases p with
    | char c => exact ih
    | sequence t => exact congrArg (Part.sequence t :: ·) ih

/-- All parts are kept up to a place, and the sequences after it. -/
theorem exists_keepFirst (n : Nat) (ps : List Part) :
    ∃ front back, ps = front ++ back ∧
      keepFirst n ps = front ++ (back.filterMap Part.sequence?).map Part.sequence := by
  fun_induction keepFirst n ps with
  | case1 n => exact ⟨[], [], rfl, rfl⟩
  | case2 n t ps ih =>
    obtain ⟨front, back, rfl, hkeep⟩ := ih
    exact ⟨.sequence t :: front, back, rfl, congrArg (Part.sequence t :: ·) hkeep⟩
  | case3 c ps _ => exact ⟨[], .char c :: ps, rfl, keepFirst_zero ps⟩
  | case4 n c ps ih =>
    obtain ⟨front, back, rfl, hkeep⟩ := ih
    exact ⟨.char c :: front, back, rfl, congrArg (Part.char c :: ·) hkeep⟩

/-- A line that is too long, and whose sequences come to their ends, is cut to the width it is told
to.  It shows its first visible characters and the ellipsis; all its sequences are there, in order,
and the one that restores the plain colour comes last.  Up to the place of the cut its parts are
those of the whole line, so each character that is kept has its colour. -/
theorem cut_keeps_sequences {width : Nat} {line : List Char} (hw : 1 ≤ width)
    (ht : Terminated line) (hl : width < visibleLength line) :
    visibleText (cut width line) = (visibleText line).take (width - 1) ++ [ellipsis] ∧
      sequences (cut width line) = sequences line ++ [plain] ∧
      visibleLength (cut width line) = width ∧
      ∃ front back, parts line = front ++ back ∧
        parts (cut width line) =
          front ++ (back.filterMap Part.sequence?).map Part.sequence ++
            [.char ellipsis, .sequence plain] := by
  have hvisible : visibleText (cut width line) =
      (visibleText line).take (width - 1) ++ [ellipsis] := by
    rw [visibleText, parts_cut ht, List.filterMap_append, filterMap_char?_keepFirst]
    rfl
  have hsequences : sequences (cut width line) = sequences line ++ [plain] := by
    rw [sequences, parts_cut ht, List.filterMap_append, filterMap_sequence?_keepFirst]
    rfl
  have hlength : visibleLength (cut width line) = width := by
    rw [visibleLength_eq] at hl
    rw [visibleLength_eq, hvisible, List.length_append, List.length_take, List.length_singleton]
    omega
  obtain ⟨front, back, hparts, hkeep⟩ := exists_keepFirst (width - 1) (parts line)
  exact ⟨hvisible, hsequences, hlength, front, back, hparts, by rw [parts_cut ht, hkeep]⟩

/-- Between an escape character that stands alone and the next sequence two characters are left
out. -/
theorem cut_keeps_sequences_alone :
    let line := "\x1b[32ma\x1bbc\x1b[0m".toList
    1 ≤ 2 ∧ Terminated line ∧ 2 < visibleLength line ∧
      cut 2 line = "\x1b[32ma\x1b\x1b[0m…\x1b[0m".toList ∧
      sequences (cut 2 line) = sequences line ++ [plain] := by
  intro line
  have hparts : parts line =
      [.sequence green, .char 'a', .sequence [escape], .char 'b', .char 'c', .sequence plain] := by
    simp [line, parts, throughLetter, escape, green, plain]
  have ht : Terminated line := by simp [Terminated, hparts, Part.Ended, green, plain]
  have hl : 2 < visibleLength line := by decide
  exact ⟨by decide, ht, hl, by decide, (cut_keeps_sequences (by decide) ht hl).2.1⟩

end QueryStats.Terminal
