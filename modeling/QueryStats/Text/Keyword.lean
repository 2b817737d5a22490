import QueryStats.Text.Word

/-!
# Keywords

A keyword is compared letter by letter after each character of the text was brought to lower case.
Two readings of lower case are in use: that of ASCII, and the simple case folding of Unicode, under
which the long s and the Kelvin sign are letters too.
-/

namespace QueryStats.Text

/-- The lower-case letter that a character stands for under simple case folding, among the letters
`a` to `z`; any other character stands for itself. -/
def fold (c : Char) : Char :=
  if c = '\u017f' then 's' else if c = '\u212a' then 'k' else c.toLower

/-- Whether a character stands for one of the letters `a` to `z` under simple case folding. -/
def isLetter (c : Char) : Bool := (fold c).isLower

/-- Whether two texts are equal up to the case of their ASCII letters. -/
def eqIgnoreCase (s t : List Char) : Bool := s.map Char.toLower == t.map Char.toLower

/-- What follows a keyword at the front of a list, each element read through `letter`; `none` if
the list does not start with the keyword. -/
def dropKeyword? {α : Type} (letter : α → Char) : List Char → List α → Option (List α)
  | [], t => some t
  | _ :: _, [] => none
  | k :: ks, x :: t => if letter x = k then dropKeyword? letter ks t else none

/-- Whether a list starts with a keyword that is not the beginning of a longer name. -/
def startsWithKeywordBy {α : Type} (face : α → Char) (keyword : List Char) (t : List α) : Bool :=
  match dropKeyword? (fun x => (face x).toLower) (keyword.map Char.toLower) t with
  | none => false
  | some [] => true
  | some (x :: _) => !isNamePart (face x)

/-- Whether a text starts with a keyword, ASCII letters compared without case, that is not the
beginning of a longer name. -/
def startsWithKeyword (text keyword : String) : Bool :=
  startsWithKeywordBy id keyword.toList text.toList

theorem dropKeyword?_append {α : Type} {letter : α → Char} {ks : List Char} {t rest : List α}
    (h : dropKeyword? letter ks t = some rest) :
    ∃ word, t = word ++ rest ∧ word.map letter = ks := by
  induction ks generalizing t with
  | nil => exact ⟨[], by simp_all [dropKeyword?]⟩
  | cons k ks ih =>
    cases t with
    | nil => simp [dropKeyword?] at h
    | cons x t =>
      simp only [dropKeyword?] at h
      split at h
      · next hx =>
        obtain ⟨word, rfl, hw⟩ := ih h
        exact ⟨x :: word, rfl, by simp [hx, hw]⟩
      · simp at h

end QueryStats.Text
