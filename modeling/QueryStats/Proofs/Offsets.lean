import Mathlib.Data.String.Basic
import QueryStats.Text.Word

/-!
# Byte offsets

A place of a text can be given by the number of bytes in front of it.  Not every offset is one of a
place: some lie inside a character, some past the end.  The places are the ways to cut the text in
two (`isValid_iff`), and cutting at an offset fails just where there is no place
(`splitAtByte?_isSome_iff`).
-/

namespace QueryStats.Text

open String (utf8Len utf8Len_append utf8Len_cons)

theorem utf8Len_eq_zero {t : List Char} : utf8Len t = 0 ↔ t = [] := by
  cases t with
  | nil => simp
  | cons c t =>
    have := c.utf8Size_pos
    simp only [utf8Len_cons, reduceCtorEq, iff_false]
    omega

theorem splitAtByte?_eq_some_iff {before t front rest : List Char} {n : Nat} :
    splitAtByte? before t n = some (front, rest) ↔
      ∃ s, front = s.reverse ++ before ∧ t = s ++ rest ∧ utf8Len s = n := by
  fun_induction splitAtByte? before t n with
  | case1 before t =>
    rw [Option.some_inj, Prod.mk.injEq]
    constructor
    · rintro ⟨rfl, rfl⟩
      exact ⟨[], rfl, rfl, rfl⟩
    · rintro ⟨s, rfl, rfl, hs⟩
      obtain rfl := utf8Len_eq_zero.1 hs
      exact ⟨rfl, rfl⟩
  | case2 before n =>
    simp only [reduceCtorEq, false_iff, not_exists, not_and]
    rintro s - ht
    obtain ⟨rfl, -⟩ := List.nil_eq_append_iff.1 ht
    exact Nat.ne_of_lt n.succ_pos
  | case3 before c t n hn ih =>
    rw [ih]
    clear ih
    constructor
    · rintro ⟨s, rfl, rfl, hs⟩
      refine ⟨c :: s, by simp, rfl, ?_⟩
      rw [utf8Len_cons]
      omega
    · rintro ⟨s, rfl, ht, hs⟩
      cases s with
      | nil => exact absurd hs (Nat.ne_of_lt n.succ_pos)
      | cons d s =>
        obtain ⟨rfl, rfl⟩ := List.cons.inj ht
        rw [utf8Len_cons] at hs
        exact ⟨s, by simp, rfl, by omega⟩
  | case4 before c t n hn =>
    simp only [reduceCtorEq, false_iff, not_exists, not_and]
    rintro s - ht hs
    cases s with
    | nil => exact absurd hs (Nat.ne_of_lt n.succ_pos)
    | cons d s =>
      obtain ⟨rfl, -⟩ := List.cons.inj ht
      rw [utf8Len_cons] at hs
      omega

/-- Cutting a text behind one of its parts gives the two parts. -/
theorem splitAtByte?_append (s t : List Char) :
    splitAtByte? [] (s ++ t) (utf8Len s) = some (s.reverse, t) :=
  splitAtByte?_eq_some_iff.2 ⟨s, (List.append_nil _).symm, rfl, rfl⟩

/-- Whether a text reads as given from an offset on. -/
def StandsAt (text : String) (pos : Nat) (t : List Char) : Prop :=
  ∃ front, text.toList = front ++ t ∧ utf8Len front = pos

theorem standsAt_zero (text : String) : StandsAt text 0 text.toList := ⟨[], rfl, rfl⟩

theorem StandsAt.tail {text : String} {pos : Nat} {c : Char} {t : List Char}
    (h : StandsAt text pos (c :: t)) : StandsAt text (pos + c.utf8Size) t := by
  obtain ⟨front, ht, rfl⟩ := h
  refine ⟨front ++ [c], ht.trans (List.append_cons ..), ?_⟩
  simp [utf8Len_append, utf8Len_cons]

theorem StandsAt.splitAtByte? {text : String} {pos : Nat} {t : List Char}
    (h : StandsAt text pos t) : ∃ front, splitAtByte? [] text.toList pos = some (front, t) := by
  obtain ⟨front, ht, rfl⟩ := h
  exact ⟨front.reverse, ht ▸ splitAtByte?_append front t⟩

theorem utf8Len_blanks (n : Nat) : utf8Len (List.replicate n ' ') = n := by
  induction n with
  | zero => rfl
  | succ n ih =>
    rw [List.replicate_succ, utf8Len_cons, ih]
    rfl

/-- Where blanks stand, one stands at the offset of each of them. -/
theorem StandsAt.blank {text : String} {pos n i : Nat} {t : List Char}
    (h : StandsAt text pos (List.replicate n ' ' ++ t)) (hi : i < n) :
    ∃ rest, StandsAt text (pos + i) (' ' :: rest) := by
  obtain ⟨before, ht, rfl⟩ := h
  obtain ⟨m, rfl⟩ := Nat.exists_eq_add_of_lt hi
  rw [Nat.add_assoc, List.replicate_add, List.replicate_succ, List.append_assoc,
    List.cons_append] at ht
  refine ⟨List.replicate m ' ' ++ t, before ++ List.replicate i ' ', ?_, ?_⟩
  · rw [ht, List.append_assoc]
  · rw [utf8Len_append, utf8Len_blanks]

/-- The places of a text are those between two parts of it. -/
theorem isValid_iff {text : String} {pos : Nat} :
    String.Pos.Raw.IsValid text ⟨pos⟩ ↔ ∃ t, StandsAt text pos t := by
  rw [String.Pos.Raw.isValid_iff_exists_append]
  constructor
  · rintro ⟨s, t, rfl, hn⟩
    refine ⟨t.toList, s.toList, String.toList_append, ?_⟩
    rw [← String.utf8ByteSize_ofList, String.ofList_toList]
    exact (congrArg String.Pos.Raw.byteIdx hn).symm
  · rintro ⟨t, s, h, rfl⟩
    refine ⟨String.ofList s, String.ofList t, ?_, ?_⟩
    · rw [← String.ofList_append, ← h, String.ofList_toList]
    · rw [← String.utf8ByteSize_ofList]
      rfl

theorem splitAtByte?_isSome_iff {text : String} {pos : Nat} :
    (splitAtByte? [] text.toList pos).isSome = true ↔ String.Pos.Raw.IsValid text ⟨pos⟩ := by
  rw [isValid_iff, Option.isSome_iff_exists]
  constructor
  · rintro ⟨⟨front, rest⟩, h⟩
    obtain ⟨s, -, ht, hs⟩ := splitAtByte?_eq_some_iff.1 h
    exact ⟨rest, s, ht, hs⟩
  · rintro ⟨t, h⟩
    obtain ⟨front, h⟩ := h.splitAtByte?
    exact ⟨_, h⟩

end QueryStats.Text
