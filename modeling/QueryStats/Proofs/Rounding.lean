import Mathlib.Algebra.Order.Field.Rat
import Mathlib.Tactic.FieldSimp
import Mathlib.Tactic.Linarith
import Mathlib.Tactic.Positivity
import Mathlib.Tactic.Ring
import QueryStats.Number.Decimal

/-!
# Rounding

Rounding a quotient gives a number with at most 53 significant bits (`isNumber_nearest`), and no
such number is nearer to the quotient (`abs_sub_nearest_le`).  So a number with so few bits is not
changed (`nearest_self`).  Nor is the order of two quotients turned around (`nearest_mono`): for
that, each of them would have to be the middle of the two numbers, and then they are the same
quotient.  Reading numerals, multiplying and rounding to whole numbers keep the order with it.
-/

namespace QueryStats.Binary64

/-! ## Nearest whole numbers -/

/-- Whether a whole number is at most one half away from `x`, and is even if it is just that. -/
structure IsNearestWhole (x : ℚ) (k : Nat) : Prop where
  lower : (k : ℚ) - 1 / 2 ≤ x
  upper : x ≤ (k : ℚ) + 1 / 2
  even_of_tie : x = (k : ℚ) - 1 / 2 ∨ x = (k : ℚ) + 1 / 2 → Even k

theorem isNearestWhole_self (k : Nat) : IsNearestWhole k k where
  lower := by linarith
  upper := by linarith
  even_of_tie := by
    rintro (h | h)
    · linarith
    · linarith

/-- The nearest whole number does not fall when a number grows. -/
theorem IsNearestWhole.mono {x y : ℚ} {j k : Nat} (hj : IsNearestWhole x j)
    (hk : IsNearestWhole y k) (h : x ≤ y) : j ≤ k := by
  by_contra hlt
  have hsucc : (k : ℚ) + 1 ≤ j := by exact_mod_cast Nat.lt_of_not_le hlt
  have hlower := hj.lower
  have hupper := hk.upper
  -- Only a tie between two neighbours is left, and one of them is odd.
  have hjk : j = k + 1 := by
    have : (j : ℚ) = k + 1 := by linarith
    exact_mod_cast this
  have hej : Even j := hj.even_of_tie (Or.inl (by linarith))
  have hek : Even k := hk.even_of_tie (Or.inr (by linarith))
  rw [hjk, Nat.even_add_one] at hej
  exact hej hek

theorem IsNearestWhole.abs_sub_le {x : ℚ} {k : Nat} (h : IsNearestWhole x k) (j : Nat) :
    |x - k| ≤ |x - j| := by
  have hlower := h.lower
  have hupper := h.upper
  have hhalf : |x - k| ≤ 1 / 2 := abs_le.2 ⟨by linarith, by linarith⟩
  rcases lt_trichotomy j k with hlt | rfl | hlt
  · have hj : (j : ℚ) + 1 ≤ k := by exact_mod_cast hlt
    refine hhalf.trans (le_trans ?_ (le_abs_self _))
    linarith
  · exact le_rfl
  · have hj : (k : ℚ) + 1 ≤ j := by exact_mod_cast hlt
    refine hhalf.trans (le_trans ?_ (neg_le_abs _))
    linarith

section

variable {x r : ℚ} {q : Nat} (hx : x = q + r)

include hx

theorem isNearestWhole_of_lt_half (h₀ : 0 ≤ r) (h : r < 1 / 2) : IsNearestWhole x q := by
  refine ⟨by linarith, by linarith, ?_⟩
  rintro (h | h)
  · linarith
  · linarith

theorem isNearestWhole_of_half_lt (h : 1 / 2 < r) (h₁ : r < 1) : IsNearestWhole x (q + 1) := by
  have hsucc : ((q + 1 : Nat) : ℚ) = q + 1 := Nat.cast_succ q
  refine ⟨by linarith, by linarith, ?_⟩
  rintro (h | h)
  · linarith
  · linarith

theorem isNearestWhole_of_eq_half (h : r = 1 / 2) : IsNearestWhole x (q + q % 2) := by
  rcases Nat.mod_two_eq_zero_or_one q with heven | hodd
  · rw [heven, Nat.add_zero]
    exact ⟨by linarith, by linarith, fun _ => Nat.even_iff.2 heven⟩
  · have hsucc : ((q + 1 : Nat) : ℚ) = q + 1 := Nat.cast_succ q
    rw [hodd]
    exact ⟨by linarith, by linarith, fun _ => Nat.even_iff.2 (by omega)⟩

end

theorem isNearestWhole_roundDiv (n : Nat) {d : Nat} (hd : 0 < d) :
    IsNearestWhole (n / d) (roundDiv n d) := by
  have hpos : (0 : ℚ) < d := by exact_mod_cast hd
  have hquot : (n : ℚ) / d = (n / d : Nat) + ((n % d : Nat) : ℚ) / d := by
    have hn : (n : ℚ) = d * (n / d : Nat) + (n % d : Nat) := by
      exact_mod_cast (Nat.div_add_mod n d).symm
    conv_lhs => rw [hn]
    rw [add_div, mul_div_cancel_left₀ _ hpos.ne']
  unfold roundDiv
  split_ifs with hlt hgt
  · refine isNearestWhole_of_lt_half hquot (by positivity) ?_
    have : 2 * ((n % d : Nat) : ℚ) < d := by exact_mod_cast hlt
    rw [div_lt_iff₀ hpos]
    linarith
  · refine isNearestWhole_of_half_lt hquot ?_ ?_
    · have : (d : ℚ) < 2 * ((n % d : Nat) : ℚ) := by exact_mod_cast hgt
      rw [lt_div_iff₀ hpos]
      linarith
    · rw [div_lt_one hpos]
      exact_mod_cast Nat.mod_lt n hd
  · refine isNearestWhole_of_eq_half hquot ?_
    have : (d : ℚ) = 2 * ((n % d : Nat) : ℚ) := by
      exact_mod_cast (by omega : d = 2 * (n % d))
    rw [div_eq_iff hpos.ne']
    linarith

/-! ## Numbers with few bits -/

/-- Whether a count of units has at most 53 significant bits. -/
def IsNumber (x : Nat) : Prop := ∃ m e, m < 2 ^ 53 ∧ x = m * 2 ^ e

theorem isNumber_of_le {m : Nat} (h : m ≤ 2 ^ 53) (e : Nat) : IsNumber (m * 2 ^ e) := by
  rcases Nat.lt_or_eq_of_le h with h | rfl
  · exact ⟨m, e, h, rfl⟩
  · refine ⟨2 ^ 52, e + 1, by norm_num, ?_⟩
    rw [Nat.pow_succ 2 e]
    ring

/-- The number of bits that are lost when a quotient is rounded. -/
def excess (q : Nat) : Nat := q.log2 - 52

theorem nearest_eq (n d : Nat) :
    nearest n d = roundDiv n (d * 2 ^ excess (n / d)) * 2 ^ excess (n / d) := rfl

theorem lt_two_pow_excess (q : Nat) : q < 2 ^ (53 + excess q) := by
  refine Nat.lt_of_lt_of_le Nat.lt_log2_self (Nat.pow_le_pow_right (by decide) ?_)
  unfold excess
  omega

theorem two_pow_le_of_excess_pos {q : Nat} (h : 0 < excess q) : 2 ^ (52 + excess q) ≤ q := by
  unfold excess at h ⊢
  have hlog : 52 + (q.log2 - 52) = q.log2 := by omega
  rw [hlog]
  refine Nat.log2_self_le ?_
  rintro rfl
  simp at h

section

variable (n : Nat) {d : Nat} (hd : 0 < d)

include hd

theorem isNumber_nearest : IsNumber (nearest n d) := by
  have hstep : 0 < d * 2 ^ excess (n / d) := Nat.mul_pos hd (Nat.two_pow_pos _)
  have hle : roundDiv n (d * 2 ^ excess (n / d)) ≤ 2 ^ 53 := by
    refine (isNearestWhole_roundDiv n hstep).mono (isNearestWhole_self _) ?_
    have hlt : n < 2 ^ 53 * 2 ^ excess (n / d) * d := by
      rw [← Nat.pow_add, ← Nat.div_lt_iff_lt_mul hd]
      exact lt_two_pow_excess _
    rw [div_le_iff₀ (by exact_mod_cast hstep)]
    exact_mod_cast (by linarith : n ≤ 2 ^ 53 * (d * 2 ^ excess (n / d)))
  rw [nearest_eq]
  exact isNumber_of_le hle _

/-- Of the multiples of its last place, a quotient is rounded to the nearest one. -/
theorem abs_sub_nearest_le_of_multiple (k : Nat) :
    |(n : ℚ) / d - nearest n d| ≤ |(n : ℚ) / d - (k * 2 ^ excess (n / d) : Nat)| := by
  have hstep : (0 : ℚ) < 2 ^ excess (n / d) := by positivity
  have hdist (j : Nat) : |(n : ℚ) / d - (j * 2 ^ excess (n / d) : Nat)| =
      2 ^ excess (n / d) * |(n : ℚ) / (d * 2 ^ excess (n / d) : Nat) - j| := by
    have hpos : (d : ℚ) ≠ 0 := by exact_mod_cast hd.ne'
    have hscale : (n : ℚ) / d - (j * 2 ^ excess (n / d) : Nat) =
        2 ^ excess (n / d) * ((n : ℚ) / (d * 2 ^ excess (n / d) : Nat) - j) := by
      push_cast
      field_simp
    rw [hscale, abs_mul, abs_of_pos hstep]
  rw [nearest_eq, hdist, hdist]
  refine mul_le_mul_of_nonneg_left ?_ hstep.le
  exact (isNearestWhole_roundDiv n (Nat.mul_pos hd (Nat.two_pow_pos _))).abs_sub_le k

/-- No number with at most 53 significant bits is nearer to a quotient than the one that it is
rounded to. -/
theorem abs_sub_nearest_le {y : Nat} (hy : IsNumber y) :
    |(n : ℚ) / d - nearest n d| ≤ |(n : ℚ) / d - y| := by
  obtain ⟨m, e, hm, rfl⟩ := hy
  by_cases he : excess (n / d) ≤ e
  · -- The number is a multiple of the last place.
    have hmul : m * 2 ^ e = m * 2 ^ (e - excess (n / d)) * 2 ^ excess (n / d) := by
      rw [Nat.mul_assoc, ← Nat.pow_add, Nat.sub_add_cancel he]
    rw [hmul]
    exact abs_sub_nearest_le_of_multiple n hd _
  · -- The least number with as many bits as the quotient lies between the two.
    have hbelow : m * 2 ^ e ≤ 2 ^ 52 * 2 ^ excess (n / d) := by
      calc m * 2 ^ e ≤ 2 ^ 53 * 2 ^ e := Nat.mul_le_mul_right _ hm.le
        _ = 2 ^ 52 * 2 ^ (e + 1) := by rw [Nat.pow_succ 2 e]; ring
        _ ≤ 2 ^ 52 * 2 ^ excess (n / d) :=
          Nat.mul_le_mul_left _ (Nat.pow_le_pow_right (by decide) (by omega))
    have hbelow' : ((m * 2 ^ e : Nat) : ℚ) ≤ (2 ^ 52 * 2 ^ excess (n / d) : Nat) := by
      exact_mod_cast hbelow
    have habove : ((2 ^ 52 * 2 ^ excess (n / d) : Nat) : ℚ) ≤ (n : ℚ) / d := by
      rw [le_div_iff₀ (by exact_mod_cast hd)]
      have h := two_pow_le_of_excess_pos (q := n / d) (by omega)
      rw [Nat.pow_add, Nat.le_div_iff_mul_le hd] at h
      exact_mod_cast h
    refine (abs_sub_nearest_le_of_multiple n hd (2 ^ 52)).trans ?_
    rw [abs_of_nonneg (by linarith), abs_of_nonneg (by linarith)]
    linarith

end

/-- A number with at most 53 significant bits is not changed. -/
theorem nearest_self {x : Nat} (hx : IsNumber x) : nearest x 1 = x := by
  have h := abs_sub_nearest_le x Nat.one_pos hx
  rw [Nat.cast_one, div_one, sub_self, abs_zero, abs_nonpos_iff, sub_eq_zero] at h
  exact_mod_cast h.symm

/-! ## Order -/

/-- Equal quotients are rounded to the same number. -/
theorem nearest_congr {n d n' d' : Nat} (hd : 0 < d) (hd' : 0 < d')
    (h : (n : ℚ) / d = (n' : ℚ) / d') : nearest n d = nearest n' d' := by
  have hpos : (d : ℚ) ≠ 0 := by exact_mod_cast hd.ne'
  have hpos' : (d' : ℚ) ≠ 0 := by exact_mod_cast hd'.ne'
  have hcross : n * d' = n' * d := by
    rw [div_eq_div_iff hpos hpos'] at h
    exact_mod_cast h
  have hdiv : n / d = n' / d' := by
    rw [← Nat.mul_div_mul_right n d hd', hcross, Nat.mul_comm d d', Nat.mul_div_mul_right n' d' hd]
  have hstep : 0 < 2 ^ excess (n' / d') := Nat.two_pow_pos _
  have hround := isNearestWhole_roundDiv n (Nat.mul_pos hd hstep)
  have hround' := isNearestWhole_roundDiv n' (Nat.mul_pos hd' hstep)
  have hquot : (n : ℚ) / (d * 2 ^ excess (n' / d') : Nat) =
      (n' : ℚ) / (d' * 2 ^ excess (n' / d') : Nat) := by
    push_cast
    rw [← div_div, ← div_div, h]
  rw [nearest_eq, nearest_eq, hdiv,
    le_antisymm (hround.mono hround' hquot.le) (hround'.mono hround hquot.ge)]

section

variable {a b x : ℚ} (hab : b < a)

include hab

theorem middle_le_of_abs_sub_le (h : |x - a| ≤ |x - b|) : (a + b) / 2 ≤ x := by
  have hsquare : (a - b) * (a + b - 2 * x) ≤ 0 := by linarith [sq_le_sq.2 h]
  linarith [nonpos_of_mul_nonpos_right hsquare (sub_pos.2 hab)]

theorem le_middle_of_abs_sub_le (h : |x - b| ≤ |x - a|) : x ≤ (a + b) / 2 := by
  have hsquare : (a - b) * (2 * x - (a + b)) ≤ 0 := by linarith [sq_le_sq.2 h]
  linarith [nonpos_of_mul_nonpos_right hsquare (sub_pos.2 hab)]

end

/-- A greater quotient is not rounded to a lesser number. -/
theorem nearest_mono {n d n' d' : Nat} (hd : 0 < d) (hd' : 0 < d')
    (h : (n : ℚ) / d ≤ (n' : ℚ) / d') : nearest n d ≤ nearest n' d' := by
  by_contra hlt
  have hlt' : (nearest n' d' : ℚ) < nearest n d := by exact_mod_cast Nat.lt_of_not_le hlt
  have hmiddle := middle_le_of_abs_sub_le hlt' (abs_sub_nearest_le n hd (isNumber_nearest n' hd'))
  have hmiddle' := le_middle_of_abs_sub_le hlt' (abs_sub_nearest_le n' hd' (isNumber_nearest n hd))
  exact hlt (nearest_congr hd hd' (by linarith)).le

theorem mulNat_mono {x y : Nat} (h : x ≤ y) (k : Nat) : mulNat x k ≤ mulNat y k := by
  unfold mulNat
  apply nearest_mono Nat.one_pos Nat.one_pos
  rw [Nat.cast_one, div_one, div_one]
  exact_mod_cast Nat.mul_le_mul_right k h

theorem round_mono {x y : Nat} (h : x ≤ y) : round x ≤ round y := by
  unfold round
  exact Nat.div_le_div_right (by omega)

theorem isFinite_mono {x y : Nat} (h : x ≤ y) (hy : isFinite y = true) : isFinite x = true :=
  decide_eq_true (Nat.lt_of_le_of_lt h (of_decide_eq_true hy))

/-! ## Whole numbers -/

theorem exists_one_eq : ∃ e, one = 2 ^ e := by
  unfold one
  generalize 1074 = e
  exact ⟨e, rfl⟩

theorem one_pos : 0 < one := by
  obtain ⟨e, he⟩ := exists_one_eq
  rw [he]
  exact Nat.two_pow_pos e

theorem isNumber_mul_one {m : Nat} (h : m ≤ 2 ^ 53) : IsNumber (m * one) := by
  obtain ⟨e, he⟩ := exists_one_eq
  rw [he]
  exact isNumber_of_le h e

theorem isFinite_mul_one {m : Nat} (h : m ≤ 2 ^ 53) : isFinite (m * one) = true := by
  have hlt : 2 ^ 53 * one < Nat.pow 2 2098 := by decide +kernel
  exact decide_eq_true (Nat.lt_of_le_of_lt (Nat.mul_le_mul_right one h) hlt)

theorem mulNat_mul_one {m k : Nat} (h : m * k ≤ 2 ^ 53) : mulNat (m * one) k = m * k * one := by
  unfold mulNat
  rw [Nat.mul_right_comm]
  exact nearest_self (isNumber_mul_one h)

theorem round_mul_one (m : Nat) : round (m * one) = m := by
  have hnum : 2 * (m * one) + one = one * (2 * m + 1) := by ring
  unfold round
  rw [hnum, Nat.mul_comm 2 one, Nat.mul_div_mul_left _ _ one_pos]
  omega

end QueryStats.Binary64

namespace QueryStats.Decimal

/-! ## Numerals -/

/-- The number that a numeral stands for, the sign left out. -/
def value (x : Decimal) : ℚ := x.digits * 10 ^ x.exponent

theorem toBinary64_eq_nearest (x : Decimal) : ∃ n d, 0 < d ∧
    x.toBinary64 = Binary64.nearest n d ∧ (n : ℚ) / d = x.value * Binary64.one := by
  unfold toBinary64 value
  generalize Binary64.one = unit
  split_ifs with he
  · refine ⟨_, _, Nat.one_pos, rfl, ?_⟩
    obtain ⟨k, hk⟩ := Int.eq_ofNat_of_zero_le he
    rw [hk, Int.toNat_natCast, zpow_natCast, Nat.pow_eq]
    push_cast
    rw [div_one]
  · refine ⟨_, _, Nat.pow_pos (by decide), rfl, ?_⟩
    obtain ⟨k, hk⟩ := Int.eq_ofNat_of_zero_le (a := -x.exponent) (by omega)
    rw [hk, Int.toNat_natCast, ← neg_neg x.exponent, hk, zpow_neg, zpow_natCast]
    push_cast
    field_simp

/-- Reading a numeral as a binary64 number keeps the order of the numbers. -/
theorem toBinary64_mono {x y : Decimal} (h : x.value ≤ y.value) : x.toBinary64 ≤ y.toBinary64 := by
  obtain ⟨n, d, hd, hx, hn⟩ := x.toBinary64_eq_nearest
  obtain ⟨n', d', hd', hy, hn'⟩ := y.toBinary64_eq_nearest
  rw [hx, hy]
  apply Binary64.nearest_mono hd hd'
  rw [hn, hn']
  exact mul_le_mul_of_nonneg_right h (Nat.cast_nonneg _)

/-- A whole number up to 2⁵³ is read as it is. -/
theorem toBinary64_of_value {x : Decimal} {m : Nat} (hx : x.value = m) (hm : m ≤ 2 ^ 53) :
    x.toBinary64 = m * Binary64.one := by
  obtain ⟨n, d, hd, heq, hquot⟩ := x.toBinary64_eq_nearest
  rw [heq, ← Binary64.nearest_self (Binary64.isNumber_mul_one hm)]
  apply Binary64.nearest_congr hd Nat.one_pos
  rw [hquot, hx, Nat.cast_one, div_one]
  push_cast
  rfl

end QueryStats.Decimal
