import QueryStats.Clause.Table

/-!
# Lines that fit

A line that is cut loses visible characters only, from one place on.  Before that place the rest of
the line reads it as before; after it only pieces of escape sequences are left.  An escape character
can then come to stand before a sequence that it stood apart from, and `Trails` says that this is
the only difference: the pieces stay invisible (`Trails.next`).  So a cut line shows the characters
it kept and the ellipsis, and no line that shows a clause is wider than the terminal.
-/

namespace QueryStats.Terminal

/-! ## Reading on after a text -/

/-- What the place after some characters is inside of. -/
def Within.after (w : Within) (line : List Char) : Within := line.foldl (fun w c => (w.next c).2) w

@[simp] theorem Within.after_nil (w : Within) : w.after [] = w := rfl

@[simp] theorem Within.after_cons (w : Within) (c : Char) (t : List Char) :
    w.after (c :: t) = (w.next c).2.after t := rfl

@[simp] theorem Within.after_append (w : Within) (s t : List Char) :
    w.after (s ++ t) = (w.after s).after t := List.foldl_append

@[simp] theorem glyphsFrom_nil (w : Within) : glyphsFrom w [] = [] := by
  cases w <;> rfl

@[simp] theorem glyphsFrom_cons (w : Within) (c : Char) (t : List Char) :
    glyphsFrom w (c :: t) = ⟨c, (w.next c).1⟩ :: glyphsFrom (w.next c).2 t := by
  cases w <;> rfl

theorem glyphsFrom_append (w : Within) (s t : List Char) :
    glyphsFrom w (s ++ t) = glyphsFrom w s ++ glyphsFrom (w.after s) t := by
  induction s generalizing w with
  | nil => simp
  | cons c s ih => simp [ih]

/-- The number of visible characters of a text that is read on from a place. -/
def visibleFrom (w : Within) (t : List Char) : Nat := (glyphsFrom w t).countP Glyph.visible

@[simp] theorem visibleFrom_nil (w : Within) : visibleFrom w [] = 0 := by
  simp [visibleFrom]

theorem visibleFrom_cons (w : Within) (c : Char) (t : List Char) :
    visibleFrom w (c :: t) = visibleFrom (w.next c).2 t + if (w.next c).1 then 1 else 0 := by
  simp [visibleFrom, List.countP_cons]

theorem visibleFrom_append (w : Within) (s t : List Char) :
    visibleFrom w (s ++ t) = visibleFrom w s + visibleFrom (w.after s) t := by
  rw [visibleFrom, glyphsFrom_append, List.countP_append]
  rfl

/-! ## One character -/

/-- After a visible character no sequence is open. -/
theorem Within.next_of_visible {w : Within} {c : Char} (h : (w.next c).1 = true) :
    w ≠ .sequence ∧ (w.next c).2 = .text := by
  unfold Within.next at h ⊢
  split at h
  · cases h
  · cases h
  · next hs _ =>
    split at h
    · cases h
    · next he => exact ⟨fun hw => hs hw, by simp [he]⟩

/-- Outside of sequences only the escape character is invisible. -/
theorem Within.eq_escape_of_next_text {c : Char} (h : (Within.text.next c).1 = false) :
    c = escape := by
  simp only [Within.next] at h
  split at h
  · assumption
  · cases h

theorem Within.next_text {c : Char} (h : c ≠ escape) : Within.text.next c = (true, .text) := by
  simp only [Within.next, if_neg h]

/-! ## After the cut -/

/-- Whether what is left of a line after a cut is read as before, but that an escape character may
stand open where its sequence had come to an end. -/
def Trails (w' w : Within) : Prop := w' = w ∨ w' = .opened ∧ w = .text

/-- An invisible character stays invisible after a cut. -/
theorem Trails.next {w' w : Within} (h : Trails w' w) {c : Char} (hc : (w.next c).1 = false) :
    (w'.next c).1 = false ∧ Trails (w'.next c).2 (w.next c).2 := by
  rcases h with rfl | ⟨rfl, rfl⟩
  · exact ⟨hc, Or.inl rfl⟩
  · rw [Within.eq_escape_of_next_text hc]
    exact ⟨rfl, Or.inl rfl⟩

/-- A visible character can be left out. -/
theorem Trails.drop {w' w : Within} (h : Trails w' w) {c : Char} (hc : (w.next c).1 = true) :
    Trails w' (w.next c).2 := by
  obtain ⟨hs, ht⟩ := Within.next_of_visible hc
  rw [ht]
  rcases h with rfl | ⟨rfl, -⟩
  · cases w' with
    | text => exact Or.inl rfl
    | opened => exact Or.inr ⟨rfl, rfl⟩
    | sequence => exact absurd rfl hs
  · exact Or.inr ⟨rfl, rfl⟩

/-- Nothing that a cut leaves after the visible characters it keeps is visible. -/
theorem visibleFrom_keepVisible_zero {w' w : Within} (h : Trails w' w) (line : List Char) :
    visibleFrom w' (keepVisible 0 (glyphsFrom w line)) = 0 := by
  induction line generalizing w' w with
  | nil => simp [keepVisible]
  | cons c line ih =>
    rw [glyphsFrom_cons, keepVisible]
    by_cases hc : (w.next c).1 = true
    · rw [if_pos hc]
      exact ih (h.drop hc)
    · rw [if_neg hc, visibleFrom_cons]
      obtain ⟨hv, ht⟩ := h.next (Bool.eq_false_iff.2 hc)
      rw [hv, ih ht]
      rfl

/-- A cut keeps as many visible characters as it is told to, if there are so many. -/
theorem visibleFrom_keepVisible (n : Nat) (w : Within) (line : List Char) :
    visibleFrom w (keepVisible n (glyphsFrom w line)) = min n (visibleFrom w line) := by
  induction line generalizing n w with
  | nil => simp [keepVisible]
  | cons c line ih =>
    cases n with
    | zero =>
      rw [visibleFrom_keepVisible_zero (Or.inl rfl), Nat.zero_min]
    | succ n =>
      rw [glyphsFrom_cons, keepVisible, visibleFrom_cons, visibleFrom_cons, ih]
      cases (w.next c).1 with
      | false => rfl
      | true => exact (Nat.succ_min_succ n _).symm

/-- Behind what a cut keeps, a place is inside of what it was inside of at the end of the line, but
that an escape character may stand open. -/
theorem trails_after_keepVisible (n : Nat) {w' w : Within} (h : Trails w' w) (hn : n ≠ 0 → w' = w)
    (line : List Char) : Trails (w'.after (keepVisible n (glyphsFrom w line))) (w.after line) := by
  induction line generalizing n w' w with
  | nil => simpa [keepVisible] using h
  | cons c line ih =>
    rw [glyphsFrom_cons, Within.after_cons]
    by_cases hc : (w.next c).1 = true
    · cases n with
      | zero =>
        rw [keepVisible, if_pos hc]
        exact ih 0 (h.drop hc) (absurd rfl)
      | succ n =>
        obtain rfl := hn n.succ_ne_zero
        rw [keepVisible, if_pos hc]
        exact ih n (Or.inl rfl) fun _ => rfl
    · obtain ⟨-, ht⟩ := h.next (Bool.eq_false_iff.2 hc)
      cases n with
      | zero =>
        rw [keepVisible, if_neg hc]
        exact ih 0 ht (absurd rfl)
      | succ n =>
        obtain rfl := hn n.succ_ne_zero
        rw [keepVisible, if_neg hc]
        exact ih (n + 1) (Or.inl rfl) fun _ => rfl

/-- The end of a cut line shows one character, unless that stands in a sequence without an end. -/
theorem visibleFrom_cutEnd {w : Within} (h : w ≠ .sequence) :
    visibleFrom w (ellipsis :: plain) = 1 := by
  cases w with
  | text => decide
  | opened => decide
  | sequence => exact absurd rfl h

theorem visibleFrom_cutEnd_le (w : Within) : visibleFrom w (ellipsis :: plain) ≤ 1 := by
  cases w <;> decide

theorem visibleLength_cut_le {width : Nat} (hw : 1 ≤ width) (line : List Char) :
    visibleLength (cut width line) ≤ width := by
  have hkept : visibleFrom .text (keepVisible (width - 1) (glyphs line)) ≤ width - 1 := by
    rw [glyphs, visibleFrom_keepVisible]
    exact Nat.min_le_left _ _
  have hcut : visibleLength (cut width line) = _ := visibleFrom_append .text _ _
  have hend := visibleFrom_cutEnd_le (Within.text.after (keepVisible (width - 1) (glyphs line)))
  omega

/-- A cut line is as wide as it is told to be, if its last sequence ends; the ellipsis is shown in
any case. -/
theorem visibleLength_cut {width : Nat} {line : List Char}
    (hs : Within.text.after line ≠ .sequence) (hl : width - 1 ≤ visibleLength line) :
    visibleLength (cut width line) = max width 1 := by
  have hkept : visibleFrom .text (keepVisible (width - 1) (glyphs line)) = width - 1 := by
    rw [glyphs, visibleFrom_keepVisible]
    exact Nat.min_eq_left hl
  have htrails : Trails (Within.text.after (keepVisible (width - 1) (glyphs line)))
      (Within.text.after line) := trails_after_keepVisible _ (Or.inl rfl) (fun _ => rfl) line
  have hend : Within.text.after (keepVisible (width - 1) (glyphs line)) ≠ .sequence := by
    intro h
    rcases htrails with ht | ⟨ht, -⟩
    · exact hs (ht ▸ h)
    · rw [ht] at h
      cases h
  have hcut : visibleLength (cut width line) = _ := visibleFrom_append .text _ _
  rw [hcut, hkept, visibleFrom_cutEnd hend]
  omega

theorem visibleLength_fit {width : Nat} {line : List Char}
    (hs : Within.text.after line ≠ .sequence) (hl : 1 ≤ visibleLength line) :
    visibleLength (fit width line) = min (max width 1) (visibleLength line) := by
  rw [fit]
  split
  · omega
  · rw [visibleLength_cut hs (by omega)]
    omega

/-- A fitted line is no wider than the terminal. -/
theorem visibleLength_fit_le {width : Nat} (hw : 1 ≤ width) (line : List Char) :
    visibleLength (fit width line) ≤ width := by
  rw [fit]
  split
  · assumption
  · exact visibleLength_cut_le hw line

theorem Grid.visibleLength_le_of_mem_lines {g : Grid} {width : Nat} (hw : 8 ≤ width)
    {line : List Char} (hl : line ∈ g.lines width) : visibleLength line ≤ width := by
  rw [lines] at hl
  split at hl
  · rw [List.mem_singleton.1 hl]
    exact hw
  · obtain ⟨raw, -, rfl⟩ := List.mem_map.1 hl
    exact visibleLength_fit_le (by omega) raw

end QueryStats.Terminal

namespace QueryStats

open Terminal

namespace Clause

theorem mem_lineChars {c : Clause} {width : Nat} {line : List Char} :
    line ∈ c.lineChars width ↔
      line = "aggregations:".toList ∨ line ∈ c.aggregationGrid.lines width ∨
        line = "group by:".toList ∨ line ∈ c.groupingGrid.lines width ∨
          line = fit width c.summary.toList := by
  simp only [lineChars, List.mem_append, List.mem_cons, List.not_mem_nil, or_false, or_assoc]

/-- Every line that shows a clause fits a terminal of at least 20 columns, whatever the texts of the
clause hold. -/
theorem visibleLength_line_le {c : Clause} {width : Nat} (hw : 20 ≤ width) {line : String}
    (hl : line ∈ c.lines width) : visibleLength line.toList ≤ width := by
  obtain ⟨chars, hc, rfl⟩ := List.mem_map.1 hl
  rw [String.toList_ofList]
  rcases mem_lineChars.1 hc with rfl | ha | rfl | hg | rfl
  · exact Nat.le_trans (by decide) hw
  · exact Grid.visibleLength_le_of_mem_lines (by omega) ha
  · exact Nat.le_trans (by decide) hw
  · exact Grid.visibleLength_le_of_mem_lines (by omega) hg
  · exact visibleLength_fit_le (by omega) _

/-- A row with sequences that do not end, cut behind the second one. -/
theorem visibleLength_line_le_unended :
    20 ≤ 20 ∧ "| 1 | a\x1b\x1b[0     | percentile_di\x1b[31                 |…\x1b[0m" ∈
        Clause.lines ⟨[⟨"percentile_disc", "\x1b[31", "", "a\x1b\x1b[0"⟩], ⟨[], none⟩⟩ 20 ∧
      visibleLength
        "| 1 | a\x1b\x1b[0     | percentile_di\x1b[31                 |…\x1b[0m".toList ≤ 20 := by
  have hl : "| 1 | a\x1b\x1b[0     | percentile_di\x1b[31                 |…\x1b[0m" ∈
      Clause.lines ⟨[⟨"percentile_disc", "\x1b[31", "", "a\x1b\x1b[0"⟩], ⟨[], none⟩⟩ 20 := by
    decide +kernel
  exact ⟨Nat.le_refl 20, hl, visibleLength_line_le (Nat.le_refl 20) hl⟩

end Clause

end QueryStats
