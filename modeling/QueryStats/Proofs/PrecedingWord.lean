import QueryStats.Proofs.Offsets
import QueryStats.Proofs.Recognition
import QueryStats.Proofs.Trimming

/-!
# The word before a place

A text can be cut into three: some front, a word and white space.  If both the white space and the
word reach as far back as they can, the cut is the only one of its kind (`wordBefore_eq_iff`), and
the word is the one that stands before the end of the text.  Before a byte offset there is such a
word just where the offset is one of a place (`precedingWord?_maximal`).
-/

namespace QueryStats.Text

open Query
open String (utf8Len)

/-- How a text ends: with a word and white space behind it, neither of which can be extended to the
front. -/
structure EndsIn (text front word blanks : List Char) : Prop where
  text_eq : text = front ++ word ++ blanks
  blanks_isBlank : ∀ c ∈ blanks, isBlank c = true
  word_isNamePart : ∀ c ∈ word, isNamePart c = true
  last_isBlank : ∀ c ∈ (front ++ word).getLast?, isBlank c = false
  last_isNamePart : ∀ c ∈ front.getLast?, isNamePart c = false

theorem exists_endsIn (text : List Char) :
    ∃ front blanks, EndsIn text front (wordBefore text.reverse) blanks := by
  let trimmed := text.reverse.dropWhile isBlank
  have hword : (trimmed.dropWhile isNamePart).reverse ++ wordBefore text.reverse =
      trimmed.reverse := by
    rw [wordBefore, ← List.reverse_append, List.takeWhile_append_dropWhile]
  refine ⟨(trimmed.dropWhile isNamePart).reverse, (text.reverse.takeWhile isBlank).reverse, ?_⟩
  constructor
  case text_eq =>
    rw [hword, ← List.reverse_append, List.takeWhile_append_dropWhile, List.reverse_reverse]
  case blanks_isBlank => exact fun c hc => List.mem_takeWhile_imp (List.mem_reverse.1 hc)
  case word_isNamePart => exact fun c hc => List.mem_takeWhile_imp (List.mem_reverse.1 hc)
  case last_isBlank =>
    rw [hword, List.getLast?_reverse]
    exact head_trimStart text.reverse
  case last_isNamePart =>
    intro c hc
    have hstop := List.head?_dropWhile_not isNamePart trimmed
    rw [List.getLast?_reverse, Option.mem_def] at hc
    rw [hc] at hstop
    exact hstop

/-- No other word fits: the white space is all that is trimmed, and the word all that is taken. -/
theorem EndsIn.wordBefore_eq {text front word blanks : List Char}
    (h : EndsIn text front word blanks) : wordBefore text.reverse = word := by
  have hblanks : ∀ c ∈ blanks.reverse, isBlank c = true := fun c hc =>
    h.blanks_isBlank c (List.mem_reverse.1 hc)
  have hword : ∀ c ∈ word.reverse, isNamePart c = true := fun c hc =>
    h.word_isNamePart c (List.mem_reverse.1 hc)
  have hfront : ∀ c ∈ front.reverse.head?, isNamePart c = false := by
    rw [List.head?_reverse]
    exact h.last_isNamePart
  have htrimmed : trimStart (front ++ word).reverse = (front ++ word).reverse := by
    refine trimStart_of_head ?_
    rw [List.head?_reverse]
    exact h.last_isBlank
  rw [trimStart, List.reverse_append] at htrimmed
  rw [h.text_eq, wordBefore, List.reverse_append, List.dropWhile_append_of_pos hblanks,
    List.reverse_append, htrimmed, (takeWhile_dropWhile_append (Or.inr hfront)).1,
    List.takeWhile_eq_self_iff.2 hword, List.reverse_reverse]

/-- The word before the end of a text is the one that the text ends in. -/
theorem wordBefore_eq_iff {text word : List Char} :
    wordBefore text.reverse = word ↔ ∃ front blanks, EndsIn text front word blanks := by
  constructor
  · rintro rfl
    exact exists_endsIn text
  · rintro ⟨front, blanks, h⟩
    exact h.wordBefore_eq

theorem precedingWord?_eq_none_iff {text : String} {pos : Nat} :
    precedingWord? text pos = none ↔ ¬String.Pos.Raw.IsValid text ⟨pos⟩ := by
  rw [← splitAtByte?_isSome_iff, precedingWord?, Option.map_eq_none_iff,
    Option.not_isSome_iff_eq_none]

theorem precedingWord?_eq_some_iff {text word : String} {pos : Nat} :
    precedingWord? text pos = some word ↔
      ∃ head rest, text.toList = head ++ rest ∧ utf8Len head = pos ∧
        wordBefore head.reverse = word.toList := by
  rw [precedingWord?, Option.map_eq_some_iff]
  constructor
  · rintro ⟨⟨before, rest⟩, hsplit, rfl⟩
    obtain ⟨head, rfl, htext, hpos⟩ := splitAtByte?_eq_some_iff.1 hsplit
    exact ⟨head, rest, htext, hpos, by simp⟩
  · rintro ⟨head, rest, htext, rfl, hword⟩
    refine ⟨(head.reverse, rest), htext ▸ splitAtByte?_append head rest, ?_⟩
    rw [hword, String.ofList_toList]

/-- There is a word before an offset, be it empty, just where the offset lies neither past the end
of the text nor inside a character.  It is the one word that the text up to there ends in: only
white space follows it, and neither that nor the word itself can be extended to the front. -/
theorem precedingWord?_maximal (text : String) (pos : Nat) :
    (precedingWord? text pos = none ↔
      text.utf8ByteSize < pos ∨ ¬String.Pos.Raw.IsValid text ⟨pos⟩) ∧
    ∀ word, precedingWord? text pos = some word ↔
      ∃ head rest front blanks, text.toList = head ++ rest ∧ utf8Len head = pos ∧
        EndsIn head front word.toList blanks := by
  constructor
  · rw [precedingWord?_eq_none_iff]
    refine ⟨Or.inr, fun h => h.elim (fun hpos hvalid => ?_) id⟩
    exact Nat.not_lt.2 hvalid.le_rawEndPos hpos
  · intro word
    rw [precedingWord?_eq_some_iff]
    simp only [wordBefore_eq_iff, exists_and_left]

example : precedingWord? "größe  by" 9 = some "größe" ∧ precedingWord? "größe  by" 3 = none := by
  decide +kernel

end QueryStats.Text
