/-!
# Sets of characters given by ranges

A `CharSet` lists ranges of code points, both ends included.  The classes of the Unicode character
database that the library needs are values of this type.
-/

namespace QueryStats.Text

/-- A set of characters, as a list of ranges of code points. -/
structure CharSet where
  /-- The first and the last code point of each range. -/
  ranges : List (Nat × Nat)

/-- Whether one of the ranges holds the character. -/
def CharSet.contains (s : CharSet) (c : Char) : Bool :=
  s.ranges.any fun r => r.1 ≤ c.toNat && c.toNat ≤ r.2

theorem CharSet.contains_iff (s : CharSet) (c : Char) :
    s.contains c = true ↔ ∃ r ∈ s.ranges, r.1 ≤ c.toNat ∧ c.toNat ≤ r.2 := by
  simp [CharSet.contains]

/-- What holds of the code points in the ranges holds of the characters in the set. -/
theorem CharSet.forall_contains {s : CharSet} {p : Char → Bool}
    (h : ∀ r ∈ s.ranges, ∀ k < r.2 + 1 - r.1, p (Char.ofNat (r.1 + k)) = true) {c : Char}
    (hc : s.contains c = true) : p c = true := by
  obtain ⟨r, hr, h₁, h₂⟩ := (s.contains_iff c).1 hc
  have := h r hr (c.toNat - r.1) (by omega)
  rwa [Nat.add_sub_cancel' h₁, Char.ofNat_toNat] at this

end QueryStats.Text
