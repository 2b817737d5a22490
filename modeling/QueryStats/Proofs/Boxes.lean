import QueryStats.Proofs.Columns
import QueryStats.Proofs.Trimming

/-!
# Boxes

A cell is shortened by the number of its characters, and the blanks beside it are counted by those
of them that are visible.  The two counts are one for a cell without escape sequences: its box is as
wide as the column, and shows the cell in full if the column is wide enough.  A cell with sequences
is shortened though its visible characters may fit (`not_infix_cellBox_coloured`), and where what is
shown of it ends inside of a sequence, that sequence swallows the blanks
(`visibleLength_paddedCell`).
-/

namespace QueryStats.Terminal

/-! ## Texts that leave no sequence open -/

/-- Whether a text that is read from outside of sequences ends outside of them. -/
def Closed (t : List Char) : Prop := Within.text.after t = .text

instance (t : List Char) : Decidable (Closed t) := inferInstanceAs (Decidable (_ = _))

theorem Closed.append {s t : List Char} (hs : Closed s) (ht : Closed t) : Closed (s ++ t) := by
  unfold Closed at hs ht ⊢
  rw [Within.after_append, hs, ht]

theorem closed_of_notMem {t : List Char} (h : escape ∉ t) : Closed t := by
  unfold Closed
  induction t with
  | nil => rfl
  | cons c t ih =>
    rw [List.mem_cons, not_or] at h
    rw [Within.after_cons, Within.next_text (Ne.symm h.1)]
    exact ih h.2

/-- Visible characters are counted part by part. -/
theorem Closed.visibleLength_append {s : List Char} (hs : Closed s) (t : List Char) :
    visibleLength (s ++ t) = visibleLength s + visibleLength t := by
  unfold Closed at hs
  have h := visibleFrom_append .text s t
  rwa [hs] at h

theorem visibleFrom_le_length (w : Within) (t : List Char) : visibleFrom w t ≤ t.length := by
  induction t generalizing w with
  | nil => simp
  | cons c t ih =>
    have := ih (w.next c).2
    rw [visibleFrom_cons, List.length_cons]
    split <;> omega

/-- A text that holds an escape character shows fewer characters than it has. -/
theorem visibleLength_lt_of_mem {t : List Char} (h : escape ∈ t) :
    visibleLength t < t.length := by
  change visibleFrom .text t < t.length
  induction t with
  | nil => cases h
  | cons c t ih =>
    rw [visibleFrom_cons, List.length_cons]
    by_cases hc : c = escape
    · subst hc
      have := visibleFrom_le_length .opened t
      simp only [Within.next, if_true, Bool.false_eq_true, if_false]
      omega
    · have ht : escape ∈ t := by simpa [Ne.symm hc] using h
      have := ih ht
      rw [Within.next_text hc]
      simp only [if_true]
      omega

/-! ## Blanks -/

theorem visibleFrom_blanks {w : Within} (h : w ≠ .sequence) (n : Nat) :
    visibleFrom w (List.replicate n ' ') = n := by
  induction n generalizing w with
  | zero => simp
  | succ n ih =>
    have hn : w.next ' ' = (true, .text) := by
      cases w with
      | text => rfl
      | opened => rfl
      | sequence => exact absurd rfl h
    rw [List.replicate_succ, visibleFrom_cons, hn, ih Within.noConfusion]
    rfl

/-- A sequence that is open swallows blanks. -/
theorem visibleFrom_sequence_blanks (n : Nat) :
    visibleFrom .sequence (List.replicate n ' ') = 0 := by
  induction n with
  | zero => simp
  | succ n ih =>
    have hn : Within.sequence.next ' ' = (false, .sequence) := rfl
    rw [List.replicate_succ, visibleFrom_cons, hn, ih]
    rfl

theorem closed_blanks (n : Nat) : Closed (List.replicate n ' ') :=
  closed_of_notMem fun h => absurd (List.eq_of_mem_replicate h) (by decide)

/-! ## Cells in their columns -/

/-- What stands for a cell in a column of a given width: the cell, shortened, and blanks. -/
def paddedCell (width : Nat) (cell : List Char) : List Char :=
  let text := shorten width cell
  if looksNumeric cell then padding width text ++ text else text ++ padding width text

theorem cellBox_eq (width : Nat) (cell : List Char) :
    cellBox width cell = ' ' :: (paddedCell width cell ++ [' ', '|']) := rfl

/-- Whether a box is a text with so many blanks on one side of it. -/
def Pads (n : Nat) (text box : List Char) : Prop :=
  box = text ++ List.replicate n ' ' ∨ box = List.replicate n ' ' ++ text

theorem pads_paddedCell (width : Nat) (cell : List Char) :
    Pads (width - visibleLength (shorten width cell)) (shorten width cell)
      (paddedCell width cell) := by
  unfold paddedCell Pads padding
  cases looksNumeric cell with
  | true => exact Or.inr rfl
  | false => exact Or.inl rfl

theorem shorten_of_le {width : Nat} {cell : List Char} (h : cell.length ≤ width) :
    shorten width cell = cell := if_pos h

theorem shorten_of_lt {width : Nat} {cell : List Char} (h : width < cell.length) :
    shorten width cell = cell.take (width - 1) ++ [ellipsis] := if_neg (Nat.not_le.2 h)

theorem length_shorten {width : Nat} (hw : 1 ≤ width) (cell : List Char) :
    (shorten width cell).length = min width cell.length := by
  by_cases h : cell.length ≤ width
  · rw [shorten_of_le h]
    omega
  · rw [shorten_of_lt (by omega), List.length_append, List.length_take, List.length_singleton]
    omega

theorem escape_notMem_shorten {cell : List Char} (h : escape ∉ cell) (width : Nat) :
    escape ∉ shorten width cell := by
  by_cases hl : cell.length ≤ width
  · rwa [shorten_of_le hl]
  · rw [shorten_of_lt (by omega), List.mem_append, not_or]
    exact ⟨fun hm => h (List.mem_of_mem_take hm), by decide⟩

/-- A cell that looks like a number holds no escape sequence. -/
theorem escape_notMem_of_looksNumeric {cell : List Char} (h : looksNumeric cell = true) :
    escape ∉ cell := by
  intro he
  simp only [looksNumeric, Bool.and_eq_true, List.all_eq_true] at h
  obtain ⟨a, b, hcell, ha, hb⟩ := Text.exists_append_trim cell
  rw [hcell, List.mem_append, List.mem_append] at he
  rcases he with he | he | he
  · exact absurd (ha _ he) (by decide)
  · exact absurd (h.1 _ he) (by decide)
  · exact absurd (hb _ he) (by decide)

section

variable {width : Nat} (hw : 1 ≤ width) (cell : List Char)

include hw

theorem visibleLength_shorten_le : visibleLength (shorten width cell) ≤ width := by
  have h : visibleLength (shorten width cell) ≤ (shorten width cell).length :=
    visibleFrom_le_length .text _
  have hlen := length_shorten hw cell
  omega

/-- A cell fills its column, unless what is shown of it ends inside of an escape sequence: then the
blanks do not show. -/
theorem visibleLength_paddedCell :
    visibleLength (paddedCell width cell) =
      if Within.text.after (shorten width cell) = .sequence then
        visibleLength (shorten width cell)
      else width := by
  have hle := visibleLength_shorten_le hw cell
  unfold paddedCell padding
  by_cases hn : looksNumeric cell = true
  · have hs : Closed (shorten width cell) :=
      closed_of_notMem (escape_notMem_shorten (escape_notMem_of_looksNumeric hn) width)
    have hblanks : visibleLength (List.replicate (width - visibleLength (shorten width cell)) ' ') =
        width - visibleLength (shorten width cell) := visibleFrom_blanks Within.noConfusion _
    rw [if_pos hn, (closed_blanks _).visibleLength_append, hblanks, hs,
      if_neg Within.noConfusion]
    omega
  · rw [if_neg hn]
    refine (visibleFrom_append .text (shorten width cell) _).trans ?_
    change visibleLength (shorten width cell) + _ = _
    by_cases hs : Within.text.after (shorten width cell) = .sequence
    · rw [if_pos hs, hs, visibleFrom_sequence_blanks, Nat.add_zero]
    · rw [if_neg hs, visibleFrom_blanks hs]
      omega

theorem visibleLength_paddedCell_eq_iff :
    visibleLength (paddedCell width cell) = width ↔
      Within.text.after (shorten width cell) ≠ .sequence := by
  rw [visibleLength_paddedCell hw]
  by_cases hs : Within.text.after (shorten width cell) = .sequence
  · -- The sequence that is open has hidden a character at least.
    have he : escape ∈ shorten width cell := by
      by_contra he
      rw [closed_of_notMem he] at hs
      cases hs
    have hlt := visibleLength_lt_of_mem he
    have hlen := length_shorten hw cell
    rw [if_pos hs]
    refine iff_of_false ?_ (not_not_intro hs)
    omega
  · rw [if_neg hs]
    exact iff_of_true rfl hs

/-- A cell stands in full in its column if it has no more characters than the column is wide, those
of its escape sequences counted in; otherwise it is cut to that number of characters.  With its
blanks it is as wide as the column, unless what is shown of it ends inside of a sequence: it is cut
there, or it is shown whole and its own last sequence has no end.  So a cell without escape
sequences stands in full if it fits, and fills its column in any case. -/
theorem paddedCell_cut_by_length :
    cellBox width cell = ' ' :: (paddedCell width cell ++ [' ', '|']) ∧
      (cell.length ≤ width →
        Pads (width - visibleLength cell) cell (paddedCell width cell)) ∧
      (width < cell.length →
        Pads (width - visibleLength (cell.take (width - 1) ++ [ellipsis]))
          (cell.take (width - 1) ++ [ellipsis]) (paddedCell width cell)) ∧
      (visibleLength (paddedCell width cell) = width ↔
        Within.text.after (shorten width cell) ≠ .sequence) ∧
      (escape ∉ cell →
        (visibleLength cell ≤ width →
          Pads (width - visibleLength cell) cell (paddedCell width cell)) ∧
        visibleLength (paddedCell width cell) = width) := by
  have hpads := pads_paddedCell width cell
  have hfull : cell.length ≤ width →
      Pads (width - visibleLength cell) cell (paddedCell width cell) := by
    intro hl
    rwa [shorten_of_le hl] at hpads
  refine ⟨cellBox_eq width cell, hfull, ?_, visibleLength_paddedCell_eq_iff hw cell,
    fun he => ⟨?_, ?_⟩⟩
  · intro hl
    rwa [shorten_of_lt hl] at hpads
  · intro hv
    rw [visibleLength_of_notMem he] at hv
    exact hfull hv
  · rw [visibleLength_paddedCell_eq_iff hw, closed_of_notMem (escape_notMem_shorten he width)]
    exact Within.noConfusion

end

/-- A cell of five characters, one of them visible, in a column of five. -/
theorem paddedCell_cut_by_length_coloured :
    1 ≤ 5 ∧ Pads 4 "\x1b[1ma".toList (paddedCell 5 "\x1b[1ma".toList) ∧
      visibleLength (paddedCell 5 "\x1b[1ma".toList) = 5 := by
  have hw : 1 ≤ 5 := by decide
  have h := paddedCell_cut_by_length hw "\x1b[1ma".toList
  exact ⟨hw, h.2.1 (by decide), h.2.2.2.1.2 (by decide)⟩

/-- A cell that shows two characters does not stand in full in a column of five, and does not fill
it: what is left of it ends inside of a sequence. -/
theorem not_infix_cellBox_coloured :
    visibleLength "\x1b[32mab\x1b[0m".toList ≤ 5 ∧
      ¬"\x1b[32mab\x1b[0m".toList <:+: cellBox 5 "\x1b[32mab\x1b[0m".toList ∧
      visibleLength (paddedCell 5 "\x1b[32mab\x1b[0m".toList) ≠ 5 := by
  decide +kernel

end QueryStats.Terminal
