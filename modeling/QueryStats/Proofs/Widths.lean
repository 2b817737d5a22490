import Mathlib.Data.Nat.Digits.Defs
import QueryStats.Interval.Width
import QueryStats.Proofs.Recognition
import QueryStats.Proofs.Rounding

/-!
# Widths of time buckets

A time bucket of so many whole units is just that many times as wide as its unit, as long as its
width is at most 2⁵³ milliseconds (`milliseconds?_whole`).  Beyond that, and where the amount has a
fraction, the width is rounded, and it ends at 2⁶³ - 1; but a time bucket of a greater amount is
never narrower (`milliseconds?_mono`).
-/

namespace QueryStats

open Text Written

/-! ## The number that an amount spells -/

/-- The whole number that digits spell. -/
def digitsNumber (ds : List Char) : Nat := Nat.ofDigits 10 (ds.map Decimal.digitValue).reverse

/-- What follows the digits at the front of an amount and the point behind them. -/
def fractionDigits (t : List Char) : List Char := (t.dropWhile Char.isDigit).tail

/-- The number that an amount spells. -/
def amountNumber (t : List Char) : ℚ :=
  digitsNumber (t.takeWhile Char.isDigit) +
    digitsNumber (fractionDigits t) / 10 ^ (fractionDigits t).length

theorem digitsNumber_append (s t : List Char) :
    digitsNumber (s ++ t) = digitsNumber t + 10 ^ t.length * digitsNumber s := by
  unfold digitsNumber
  rw [List.map_append, List.reverse_append, Nat.ofDigits_append, List.length_reverse,
    List.length_map]

section

variable {t rest : List Char} (h : ∀ c ∈ t, c.isDigit = true)
  (hrest : ∀ c ∈ rest.head?, c.isDigit = false)

include h hrest

theorem takeWhile_isDigit_append : (t ++ rest).takeWhile Char.isDigit = t := by
  rw [List.takeWhile_append_of_pos h]
  cases rest with
  | nil => rw [List.takeWhile_nil, List.append_nil]
  | cons c rest => simp [hrest c rfl]

theorem dropWhile_isDigit_append : (t ++ rest).dropWhile Char.isDigit = rest := by
  rw [List.dropWhile_append_of_pos h]
  cases rest with
  | nil => rfl
  | cons c rest => simp [hrest c rfl]

theorem amountNumber_append :
    amountNumber (t ++ rest) = digitsNumber t + digitsNumber rest.tail / 10 ^ rest.tail.length := by
  unfold amountNumber fractionDigits
  rw [takeWhile_isDigit_append h hrest, dropWhile_isDigit_append h hrest]

theorem span_isDigit_append : (t ++ rest).span Char.isDigit = (t, rest) := by
  rw [List.span_eq_takeWhile_dropWhile, takeWhile_isDigit_append h hrest,
    dropWhile_isDigit_append h hrest]

end

theorem amountNumber_of_isDigits {ds : List Char} (h : IsDigits ds) :
    amountNumber ds = digitsNumber ds := by
  have happend : amountNumber (ds ++ []) = _ := amountNumber_append h.2 nofun
  have hnil : digitsNumber [] = 0 := rfl
  rwa [List.append_nil, List.tail_nil, hnil, Nat.cast_zero, zero_div, add_zero] at happend

namespace Decimal

theorem ofDigits_eq (ds : List Char) : ofDigits ds = digitsNumber ds := by
  induction ds using List.reverseRecOn with
  | nil => rfl
  | append_singleton ds c ih =>
    have hc : digitsNumber [c] = digitValue c := Nat.ofDigits_singleton
    unfold ofDigits at ih ⊢
    rw [digitsNumber_append, List.foldl_append, ih, hc, List.length_singleton, Nat.pow_one,
      Nat.add_comm]
    rfl

theorem splitSign_append {t : List Char} (h : IsDigits t) (rest : List Char) :
    splitSign (t ++ rest) = (false, t ++ rest) := by
  obtain ⟨c, t, rfl⟩ := List.exists_cons_of_ne_nil h.1
  have hc := h.2 c List.mem_cons_self
  rw [List.cons_append]
  unfold splitSign
  split
  · next heq =>
    obtain ⟨rfl, -⟩ := List.cons.inj heq
    cases hc
  · next heq =>
    obtain ⟨rfl, -⟩ := List.cons.inj heq
    cases hc
  · rfl

/-- An amount is read as the number that it spells. -/
theorem ofChars?_of_isAmount {t : List Char} (h : IsAmount t) :
    ∃ x, ofChars? t = some x ∧ x.negative = false ∧ x.value = amountNumber t := by
  -- Whether or not there is a point, what stands behind the first digits holds the others.
  obtain ⟨whole, rest, hw, rfl, hstop, hfraction⟩ : ∃ whole rest, IsDigits whole ∧
      t = whole ++ rest ∧ (∀ c ∈ rest.head?, c.isDigit = false) ∧
        splitFraction rest = (rest.tail, []) := by
    rcases h with h | ⟨whole, part, hw, hp, ht⟩
    · exact ⟨t, [], h, (List.append_nil t).symm, nofun, rfl⟩
    · refine ⟨whole, '.' :: part, hw, ht, ?_, ?_⟩
      · rintro _ ⟨⟩
        decide
      · have hspan : (part ++ []).span Char.isDigit = _ := span_isDigit_append hp.2 nofun
        rwa [List.append_nil] at hspan
  have hne : whole.isEmpty = false := by simpa using hw.1
  refine ⟨⟨false, ofDigits (whole ++ rest.tail), 0 - rest.tail.length⟩, ?_, rfl, ?_⟩
  · simp only [ofChars?, splitSign_append hw, span_isDigit_append hw.2 hstop, hfraction, hne]
    rfl
  · unfold value
    rw [amountNumber_append hw.2 hstop, ofDigits_eq, digitsNumber_append, zero_sub, zpow_neg,
      zpow_natCast]
    push_cast
    field_simp
    ring

end Decimal

/-- The white space around an amount is left out. -/
theorem trim_append_of_isAmount {t before after : List Char} (h : IsAmount t)
    (hbefore : ∀ c ∈ before, isBlank c = true) (hafter : ∀ c ∈ after, isBlank c = true) :
    trim (before ++ (t ++ after)) = t := by
  have hblank : ∀ c ∈ t, isBlank c = false := fun c hc =>
    Query.isBlank_of_isAliasChar (IsAmount.isAliasChar h c hc)
  exact trim_append_of_ends hbefore hafter (fun c hc => hblank c (List.mem_of_mem_head? hc))
    fun c hc => hblank c (List.mem_of_mem_getLast? hc)

theorem trim_of_isAmount {t : List Char} (h : IsAmount t) : trim t = t := by
  have happend : trim ([] ++ (t ++ [])) = t := trim_append_of_isAmount h nofun nofun
  rwa [List.nil_append, List.append_nil] at happend

/-! ## The width of an amount -/

theorem amountValue?_of_ofChars? {t : List Char} {x : Decimal}
    (h : Decimal.ofChars? (trim t) = some x) (hx : x.negative = false) :
    amountValue? t = if Binary64.isFinite x.toBinary64 then some x.toBinary64 else none := by
  simp [amountValue?, h, hx]

theorem amountValue?_mono {s t : List Char} (hs : IsAmount s) (ht : IsAmount t)
    (hle : amountNumber s ≤ amountNumber t) {units : Nat} (h : amountValue? t = some units) :
    ∃ units', amountValue? s = some units' ∧ units' ≤ units := by
  obtain ⟨x, hx, hxpos, hxvalue⟩ := Decimal.ofChars?_of_isAmount hs
  obtain ⟨y, hy, hypos, hyvalue⟩ := Decimal.ofChars?_of_isAmount ht
  have hunits : x.toBinary64 ≤ y.toBinary64 := Decimal.toBinary64_mono (by rwa [hxvalue, hyvalue])
  rw [← trim_of_isAmount hs] at hx
  rw [← trim_of_isAmount ht] at hy
  rw [amountValue?_of_ofChars? hy hypos, Option.ite_none_right_eq_some] at h
  obtain ⟨hfinite, ⟨⟩⟩ := h
  refine ⟨x.toBinary64, ?_, hunits⟩
  rw [amountValue?_of_ofChars? hx hxpos, if_pos (Binary64.isFinite_mono hunits hfinite)]

theorem amountValue?_whole {before ds after : List Char} (hds : IsDigits ds)
    (hbefore : ∀ c ∈ before, isBlank c = true) (hafter : ∀ c ∈ after, isBlank c = true)
    (hle : digitsNumber ds ≤ 2 ^ 53) :
    amountValue? (before ++ (ds ++ after)) = some (digitsNumber ds * Binary64.one) := by
  obtain ⟨x, hx, hpos, hvalue⟩ := Decimal.ofChars?_of_isAmount (Or.inl hds)
  rw [amountNumber_of_isDigits hds] at hvalue
  rw [← trim_append_of_isAmount (Or.inl hds) hbefore hafter] at hx
  rw [amountValue?_of_ofChars? hx hpos, Decimal.toBinary64_of_value hvalue hle,
    if_pos (Binary64.isFinite_mul_one hle)]

theorem widthOf_mono {x y : Nat} (h : x ≤ y) (perUnit : Nat) :
    widthOf x perUnit ≤ widthOf y perUnit := by
  unfold widthOf
  exact min_le_min_right _ (Binary64.round_mono (Binary64.mulNat_mono h perUnit))

theorem widthOf_mul_one {m perUnit : Nat} (h : m * perUnit ≤ 2 ^ 53) :
    widthOf (m * Binary64.one) perUnit = m * perUnit := by
  unfold widthOf
  rw [Binary64.mulNat_mul_one h, Binary64.round_mul_one]
  exact min_eq_left (h.trans (by decide))

theorem TimeUnit.milliseconds?_pos {u : TimeUnit} {w : Nat} (h : u.milliseconds? = some w) :
    0 < w := by
  cases u <;> cases h <;> decide

namespace Bucket

/-- The width of a time bucket is decided by the width of its unit and by its amount. -/
theorem milliseconds?_eq (b : Bucket) : b.milliseconds? =
    (b.timeUnit?.bind TimeUnit.milliseconds?).bind fun w =>
      (amountValue? b.amount.toList).map (widthOf · w) := by
  unfold milliseconds? fixedWidth? timeUnit? TimeUnit.ofText?
  rcases TimeUnit.ofChars? b.unit.toList with _ | u
  · rfl
  simp only [Option.bind_eq_bind, Option.bind_some]
  rcases u.milliseconds? with _ | w
  · rfl
  rcases amountValue? b.amount.toList with _ | units <;> rfl

/-- So many whole units, up to 2⁵³ milliseconds, are exactly that many times as wide as one. -/
theorem milliseconds?_whole {b : Bucket} {u : TimeUnit} {w : Nat} {before ds after : List Char}
    (hu : b.timeUnit? = some u) (hw : u.milliseconds? = some w)
    (hamount : b.amount.toList = before ++ (ds ++ after)) (hds : IsDigits ds)
    (hbefore : ∀ c ∈ before, isBlank c = true) (hafter : ∀ c ∈ after, isBlank c = true)
    (hle : digitsNumber ds * w ≤ 2 ^ 53) : b.milliseconds? = some (digitsNumber ds * w) := by
  have hdigits : digitsNumber ds ≤ 2 ^ 53 :=
    (Nat.le_mul_of_pos_right _ (TimeUnit.milliseconds?_pos hw)).trans hle
  rw [milliseconds?_eq, hu, Option.bind_some, hw, Option.bind_some, hamount,
    amountValue?_whole hds hbefore hafter hdigits, Option.map_some, widthOf_mul_one hle]

/-- The widest time bucket whose width is certain to be exact. -/
theorem milliseconds?_whole_padded :
    (⟨"ts", "\t09007199254740992\u3000", "MS", "", ""⟩ : Bucket).milliseconds? = some (2 ^ 53) := by
  have hvalue : digitsNumber "09007199254740992".toList = 2 ^ 53 := by decide +kernel
  have hamount : "\t09007199254740992\u3000".toList =
      ['\t'] ++ ("09007199254740992".toList ++ ['\u3000']) := by decide +kernel
  have hunit : (⟨"ts", "\t09007199254740992\u3000", "MS", "", ""⟩ : Bucket).timeUnit? =
      some .millisecond := by decide +kernel
  have h := milliseconds?_whole hunit rfl hamount ⟨by decide +kernel, by decide +kernel⟩
    (by decide) (by decide) (by rw [hvalue]; rfl)
  rwa [hvalue, Nat.mul_one] at h

/-- A greater amount of a unit is never narrower. -/
theorem milliseconds?_mono {a b : Bucket} (hunit : a.timeUnit? = b.timeUnit?)
    (ha : IsAmount a.amount.toList) (hb : IsAmount b.amount.toList)
    (hle : amountNumber a.amount.toList ≤ amountNumber b.amount.toList) {y : Nat}
    (hy : b.milliseconds? = some y) :
    ∃ x, a.milliseconds? = some x ∧ x ≤ y ∧ y ≤ 2 ^ 63 - 1 := by
  rw [milliseconds?_eq] at hy
  obtain ⟨w, hw, hy⟩ := Option.bind_eq_some_iff.1 hy
  obtain ⟨units, hunits, rfl⟩ := Option.map_eq_some_iff.1 hy
  obtain ⟨units', hunits', hle'⟩ := amountValue?_mono ha hb hle hunits
  refine ⟨widthOf units' w, ?_, widthOf_mono hle' w, min_le_right _ _⟩
  rw [milliseconds?_eq, hunit, hw, Option.bind_some, hunits', Option.map_some]

/-- Not even where the product with the width of the unit is beyond the finite numbers. -/
theorem milliseconds?_mono_overflow :
    ∃ x, (⟨"ts", "0.1", "week", "", ""⟩ : Bucket).milliseconds? = some x ∧ x ≤ 2 ^ 63 - 1 := by
  obtain ⟨ds, hds⟩ : ∃ ds, ds = '1' :: List.replicate 308 '0' := ⟨_, rfl⟩
  have hdigits : IsDigits ds := by
    rw [hds]
    exact ⟨nofun, by decide +kernel⟩
  have hle : amountNumber "0.1".toList ≤ amountNumber ds := by
    have hone : amountNumber "0.1".toList ≤ 1 := by decide +kernel
    have hdigit : 1 ≤ digitsNumber ds := by
      rw [← Decimal.ofDigits_eq, hds]
      decide +kernel
    rw [amountNumber_of_isDigits hdigits]
    exact hone.trans (by exact_mod_cast hdigit)
  have hy : (⟨"ts", String.ofList ds, "W", "", ""⟩ : Bucket).milliseconds? = some (2 ^ 63 - 1) := by
    unfold milliseconds?
    rw [String.toList_ofList, hds]
    decide +kernel
  have hunit : TimeUnit.ofText? "week" = TimeUnit.ofText? "W" := by decide +kernel
  have ha : IsAmount "0.1".toList :=
    Or.inr ⟨['0'], ['1'], ⟨by decide, by decide⟩, ⟨by decide, by decide⟩, by decide +kernel⟩
  rw [← String.toList_ofList (l := ds)] at hdigits hle
  obtain ⟨x, hx, hxy, -⟩ := milliseconds?_mono (a := ⟨"ts", "0.1", "week", "", ""⟩)
    (b := ⟨"ts", String.ofList ds, "W", "", ""⟩) hunit ha (Or.inl hdigits) hle hy
  exact ⟨x, hx, hxy⟩

end Bucket

end QueryStats
