import QueryStats.Proofs.Comments
import QueryStats.Query.Call

/-!
# The characters of names

Names of functions, bare aliases and units are made up of ASCII characters and of the two letters
beyond ASCII that fold to one (`ascii_or_of_isAliasChar`).  So what holds of those characters is
checked on a table of 128 and on two more (`of_isAliasChar`).
-/

namespace QueryStats.Query

open Text

theorem toNat_lt_of_isLower {c : Char} (h : c.isLower = true) : c.toNat < 128 := by
  have hle : c.val ≤ 'z'.val := of_decide_eq_true (Bool.and_eq_true_iff.1 h).2
  exact Nat.lt_of_le_of_lt (UInt32.le_iff_toNat_le.1 hle) (by decide)

/-- A character whose lower case is an ASCII letter is one itself. -/
theorem toNat_lt_of_isLower_toLower {c : Char} (h : c.toLower.isLower = true) : c.toNat < 128 := by
  by_cases hu : c.val ≤ 'Z'.val
  · exact Nat.lt_of_le_of_lt (UInt32.le_iff_toNat_le.1 hu) (by decide)
  · have hn : c.toLower = c := dif_neg fun hc => hu hc.2
    rw [hn] at h
    exact toNat_lt_of_isLower h

theorem ascii_or_of_isLetter {c : Char} (h : isLetter c = true) :
    c.toNat < 128 ∨ c = '\u017f' ∨ c = '\u212a' := by
  by_cases hs : c = '\u017f'
  · exact Or.inr (Or.inl hs)
  by_cases hk : c = '\u212a'
  · exact Or.inr (Or.inr hk)
  rw [isLetter, fold, if_neg hs, if_neg hk] at h
  exact Or.inl (toNat_lt_of_isLower_toLower h)

theorem ascii_or_of_isAliasChar {c : Char} (h : isAliasChar c = true) :
    c.toNat < 128 ∨ c = '\u017f' ∨ c = '\u212a' := by
  simp only [isAliasChar, Bool.or_eq_true, decide_eq_true_eq] at h
  rcases h with ((h | h) | rfl) | rfl
  · exact ascii_or_of_isLetter h
  · rw [Char.isDigit, Bool.and_eq_true, decide_eq_true_eq, decide_eq_true_eq] at h
    exact Or.inl (Nat.lt_of_le_of_lt (UInt32.le_iff_toNat_le.1 h.2) (by decide))
  · exact Or.inl (by decide)
  · exact Or.inl (by decide)

/-- What holds of the ASCII ones and of the long s and the Kelvin sign holds of all. -/
theorem of_isAliasChar {p : Char → Bool}
    (h : ∀ n < 128, isAliasChar (Char.ofNat n) = true → p (Char.ofNat n) = true)
    (hs : p '\u017f' = true) (hk : p '\u212a' = true) {c : Char} (hc : isAliasChar c = true) :
    p c = true := by
  rcases ascii_or_of_isAliasChar hc with ha | rfl | rfl
  · have := h c.toNat ha
    rw [Char.ofNat_toNat] at this
    exact this hc
  · exact hs
  · exact hk

theorem isAliasChar_of_isNameChar {c : Char} (h : isNameChar c = true) : isAliasChar c = true := by
  simp only [isNameChar, isNameStart, Bool.or_eq_true, decide_eq_true_eq] at h
  rcases h with (h | rfl) | h
  · rw [isAliasChar, h]
    rfl
  · rfl
  · rw [isAliasChar, h, Bool.or_true]
    rfl

theorem isAliasChar_of_isLetter {c : Char} (h : isLetter c = true) : isAliasChar c = true := by
  rw [isAliasChar, h]
  rfl

theorem isAliasChar_of_isDigit {c : Char} (h : c.isDigit = true) : isAliasChar c = true := by
  rw [isAliasChar, h, Bool.or_true]
  rfl

theorem isQuote_of_isAliasChar {c : Char} (h : isAliasChar c = true) : isQuote c = false := by
  have := of_isAliasChar (p := fun c => !isQuote c) (by decide) (by decide) (by decide) h
  simpa using this

theorem isBlank_of_isAliasChar {c : Char} (h : isAliasChar c = true) : isBlank c = false := by
  have := of_isAliasChar (p := fun c => !isBlank c) (by decide) (by decide) (by decide) h
  simpa using this

theorem isFieldChar_of_isAliasChar {c : Char} (h : isAliasChar c = true) : isFieldChar c = true :=
  of_isAliasChar (by decide) (by decide) (by decide) h

theorem isBlank_of_isFieldChar {c : Char} (h : isFieldChar c = true) : isBlank c = false := by
  rw [← Bool.not_eq_true]
  intro hb
  simp [isFieldChar, hb] at h

theorem isInert_of_isAliasChar {c : Char} (h : isAliasChar c = true) : isInert c = true :=
  of_isAliasChar (by decide) (by decide) (by decide) h

/-- The characters of a keyword under simple case folding. -/
theorem isAliasChar_of_fold {word : List Cell} {ks : List Char}
    (h : word.map (fold ·.face) = ks) (hk : ∀ k ∈ ks, k.isLower = true) :
    ∀ x ∈ word, isAliasChar x.face = true := by
  intro x hx
  have hm : fold x.face ∈ ks := by
    rw [← h]
    exact List.mem_map_of_mem (f := fun x : Cell => fold x.face) hx
  exact isAliasChar_of_isLetter (hk _ hm)

theorem isLetter_of_isQuote {q : Char} (h : isQuote q = true) : isLetter q = false := by
  rw [← Bool.not_eq_true]
  intro hl
  rw [isQuote_of_isAliasChar (isAliasChar_of_isLetter hl)] at h
  cases h

theorem isWord_of_isLetter {c : Char} (h : isLetter c = true) : isWord c = true := by
  have := of_isAliasChar (p := fun c => isWord c || c = '.') (by decide +kernel) (by decide +kernel)
    (by decide +kernel) (isAliasChar_of_isLetter h)
  rw [Bool.or_eq_true, decide_eq_true_eq] at this
  rcases this with hw | rfl
  · exact hw
  · cases h

/-- An ASCII letter is one under both readings of lower case, and part of a name. -/
theorem of_isLower_toLower {c : Char} (h : c.toLower.isLower = true) :
    isLetter c = true ∧ isNamePart c = true ∧ fold c = c.toLower := by
  have hall : ∀ n < 128, (Char.ofNat n).toLower.isLower = true →
      isLetter (Char.ofNat n) = true ∧ isNamePart (Char.ofNat n) = true ∧
        fold (Char.ofNat n) = (Char.ofNat n).toLower := by decide +kernel
  have := hall c.toNat (toNat_lt_of_isLower_toLower h)
  rw [Char.ofNat_toNat] at this
  exact this h

theorem isNamePart_of_isLetter {c : Char} (h : isLetter c = true) : isNamePart c = true := by
  have := of_isAliasChar (p := fun c => isNamePart c || c = '.') (by decide +kernel)
    (by decide +kernel) (by decide +kernel) (isAliasChar_of_isLetter h)
  rw [Bool.or_eq_true, decide_eq_true_eq] at this
  rcases this with hn | rfl
  · exact hn
  · cases h

/-- What can stand in no alias can start no name of a function. -/
theorem isNameStart_eq_false {c : Char} (h : isAliasChar c = false) : isNameStart c = false := by
  rw [← Bool.not_eq_true] at h ⊢
  intro hs
  apply h
  apply isAliasChar_of_isNameChar
  rw [isNameChar, hs, Bool.true_or]

theorem isDigit_of_isLetter {c : Char} (h : isLetter c = true) : c.isDigit = false := by
  have := of_isAliasChar (p := fun c => !(isLetter c && c.isDigit)) (by decide) (by decide)
    (by decide) (isAliasChar_of_isLetter h)
  simpa [h] using this

theorem isNameStart_of_isDigit {c : Char} (h : c.isDigit = true) : isNameStart c = false := by
  rw [isNameStart, Bool.or_eq_false_iff, decide_eq_false_iff_not, ← Bool.not_eq_true]
  constructor
  · intro hl
    rw [isDigit_of_isLetter hl] at h
    cases h
  · rintro rfl
    cases h

/-! ## Breaks -/

/-- Whether a character is white space or one of the signs that stand between names: no word goes on
over it. -/
def isBreak (c : Char) : Bool := isBlank c || "=<>!(),".toList.contains c

/-- A break is part of no word or name, and it is neither a quote nor the first sign of a
comment. -/
theorem of_isBreak {c : Char} (h : isBreak c = true) :
    (isWord c = false ∧ isNamePart c = false ∧ isAliasChar c = false) ∧ isInert c = true := by
  have hp : (!(isWord c || isNamePart c || isAliasChar c) && isInert c) = true := by
    rw [isBreak, Bool.or_eq_true] at h
    rcases h with h | h
    · exact CharSet.forall_contains
        (p := fun c => !(isWord c || isNamePart c || isAliasChar c) && isInert c)
        (by decide +kernel) h
    · have hall : ∀ c ∈ "=<>!(),".toList,
          (!(isWord c || isNamePart c || isAliasChar c) && isInert c) = true := by decide +kernel
      exact hall c (List.contains_iff_mem.1 h)
  simpa [and_assoc] using hp

theorem isBreak_of_isBlank {c : Char} (h : isBlank c = true) : isBreak c = true := by
  rw [isBreak, h, Bool.true_or]

end QueryStats.Query
