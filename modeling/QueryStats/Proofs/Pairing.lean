import Mathlib.Data.List.DropRight
import Mathlib.Data.List.TakeWhile

/-!
# Lists walked in step

Two lists are walked in step from a state: one element for one, or a whole run for another run, of
whatever length.  A `Pairing` says which elements and which runs go together in each state, and the
state changes with the elements of the first list.  A test that does not tell apart what goes
together cuts two such lists in step (`InStep.cut_dropWhile`, `InStep.rdropWhile`), and one cut
follows another (`Cut.trans`).
-/

namespace QueryStats

/-- What goes together in two lists that are walked in step. -/
structure Pairing (σ α : Type) where
  /-- The state after one more element of the first list. -/
  next : σ → α → σ
  one : σ → α → α → Prop
  run : σ → List α → List α → Prop
  ne_nil : ∀ {s a b}, run s a b → a ≠ [] ∧ b ≠ []
  foldl_next : ∀ {s a b}, run s a b → a.foldl next s = s

namespace Pairing

variable {σ α : Type} {P : Pairing σ α}

/-- Whether two lists can be walked in step from a state. -/
inductive InStep (P : Pairing σ α) : σ → List α → List α → Prop
  | nil (s : σ) : InStep P s [] []
  | one {s : σ} {x y : α} {t u : List α} (h : P.one s x y) (hr : InStep P (P.next s x) t u) :
      InStep P s (x :: t) (y :: u)
  | run {s : σ} {a b t u : List α} (h : P.run s a b) (hr : InStep P s t u) :
      InStep P s (a ++ t) (b ++ u)

/-- Whether a test does not tell apart what goes together. -/
structure Blind (P : Pairing σ α) (p : α → Bool) : Prop where
  one : ∀ {s x y}, P.one s x y → p x = p y
  run : ∀ {s a b}, P.run s a b → ∃ v, (∀ x ∈ a, p x = v) ∧ ∀ y ∈ b, p y = v

/-- Whether a test fails on all that stands in runs, besides. -/
structure Solid (P : Pairing σ α) (p : α → Bool) : Prop extends Blind P p where
  run_eq_false : ∀ {s a b}, P.run s a b → ∀ x ∈ a, p x = false

/-- Two lists cut in step: what comes before the cut is walked in step, and so is what is left. -/
structure Cut (P : Pairing σ α) (s : σ) (t u : List α) (r : σ) (t' u' : List α) : Prop where
  before : ∃ a b, (t = a ++ t' ∧ u = b ++ u') ∧ P.InStep s a b ∧ a.foldl P.next s = r
  after : P.InStep r t' u'

theorem foldl_next_of_forall {s : σ} {a : List α} (h : ∀ x ∈ a, P.next s x = s) :
    a.foldl P.next s = s := by
  induction a with
  | nil => rfl
  | cons x a ih =>
    rw [List.forall_mem_cons] at h
    rw [List.foldl_cons, h.1, ih h.2]

namespace InStep

variable {p : α → Bool} {s : σ} {a b t u : List α}

theorem append (h₁ : P.InStep s a b) (h₂ : P.InStep (a.foldl P.next s) t u) :
    P.InStep s (a ++ t) (b ++ u) := by
  induction h₁ with
  | nil s => exact h₂
  | one h hr ih => exact .one h (ih h₂)
  | @run s a b c d h hr ih =>
    rw [List.foldl_append, P.foldl_next h] at h₂
    rw [List.append_assoc, List.append_assoc]
    exact .run h (ih h₂)

theorem eq_nil_iff (h : P.InStep s t u) : t = [] ↔ u = [] := by
  cases h with
  | nil s => simp
  | one h hr => simp
  | run h hr => simp [P.ne_nil h]

/-- The first elements of the two lists pass a test both or neither. -/
theorem any_head? (hp : P.Blind p) (h : P.InStep s t u) : t.head?.any p = u.head?.any p := by
  cases h with
  | nil s => rfl
  | one h hr => exact hp.one h
  | @run _ a b _ _ h hr =>
    obtain ⟨v, ha, hb⟩ := hp.run h
    obtain ⟨x, a, rfl⟩ := List.exists_cons_of_ne_nil (P.ne_nil h).1
    obtain ⟨y, b, rfl⟩ := List.exists_cons_of_ne_nil (P.ne_nil h).2
    exact (ha x List.mem_cons_self).trans (hb y List.mem_cons_self).symm

/-- Some element of each list passes a test, or none of either. -/
theorem any (hp : P.Blind p) (h : P.InStep s t u) : t.any p = u.any p := by
  induction h with
  | nil s => rfl
  | one h hr ih => rw [List.any_cons, List.any_cons, hp.one h, ih]
  | @run _ a b _ _ h hr ih =>
    obtain ⟨v, ha, hb⟩ := hp.run h
    have hany {c : List α} (hc : ∀ x ∈ c, p x = v) (hne : c ≠ []) : c.any p = v := by
      cases v with
      | false => simpa using hc
      | true =>
        obtain ⟨x, c, rfl⟩ := List.exists_cons_of_ne_nil hne
        simp [hc x List.mem_cons_self]
    rw [List.any_append, List.any_append, ih, hany ha (P.ne_nil h).1, hany hb (P.ne_nil h).2]

/-- What a test cuts off the front, and what it leaves. -/
theorem span (hp : P.Blind p) (h : P.InStep s t u) :
    P.InStep s (t.takeWhile p) (u.takeWhile p) ∧
      P.InStep ((t.takeWhile p).foldl P.next s) (t.dropWhile p) (u.dropWhile p) := by
  induction h with
  | nil s => exact ⟨.nil s, .nil s⟩
  | @one s x y t u h hr ih =>
    have hy : p y = p x := (hp.one h).symm
    cases hx : p x with
    | false =>
      simp only [List.takeWhile_cons, List.dropWhile_cons, hy, hx, if_false, Bool.false_eq_true]
      exact ⟨.nil s, .one h hr⟩
    | true =>
      simp only [List.takeWhile_cons, List.dropWhile_cons, hy, hx, if_true]
      exact ⟨.one h ih.1, ih.2⟩
  | @run s a b t u h hr ih =>
    -- A run passes the test as a whole or not at all, so it is never cut.
    obtain ⟨v, ha, hb⟩ := hp.run h
    cases v with
    | false =>
      obtain ⟨x, a, rfl⟩ := List.exists_cons_of_ne_nil (P.ne_nil h).1
      obtain ⟨y, b, rfl⟩ := List.exists_cons_of_ne_nil (P.ne_nil h).2
      have hx : p x = false := ha x List.mem_cons_self
      have hy : p y = false := hb y List.mem_cons_self
      have hwhole : P.InStep s (x :: a ++ t) (y :: b ++ u) := .run h hr
      simp only [List.cons_append, List.takeWhile_cons, List.dropWhile_cons, hx, hy, if_false,
        Bool.false_eq_true] at hwhole ⊢
      exact ⟨.nil s, hwhole⟩
    | true =>
      rw [List.takeWhile_append_of_pos ha, List.takeWhile_append_of_pos hb,
        List.dropWhile_append_of_pos ha, List.dropWhile_append_of_pos hb, List.foldl_append,
        P.foldl_next h]
      exact ⟨.run h ih.1, ih.2⟩

/-- Whether the end of the first part is cut depends on whether the second is cut away. -/
theorem rdropWhile_append_ite (p : α → Bool) (a t : List α) :
    (a ++ t).rdropWhile p =
      if t.rdropWhile p = [] then a.rdropWhile p else a ++ t.rdropWhile p := by
  simp only [List.rdropWhile, List.reverse_append, List.dropWhile_append, List.isEmpty_iff,
    List.reverse_eq_nil_iff]
  split <;> simp

/-- What is left when a test cuts off the end. -/
theorem rdropWhile (hp : P.Blind p) (h : P.InStep s t u) :
    P.InStep s (t.rdropWhile p) (u.rdropWhile p) := by
  induction h with
  | nil s => exact .nil s
  | @one s x y t u h hr ih =>
    have hx := rdropWhile_append_ite p [x] t
    have hy := rdropWhile_append_ite p [y] u
    rw [List.singleton_append, List.rdropWhile_singleton, hp.one h] at hx
    rw [List.singleton_append, List.rdropWhile_singleton] at hy
    rw [hx, hy]
    by_cases ht : t.rdropWhile p = []
    · rw [if_pos ht, if_pos (ih.eq_nil_iff.1 ht)]
      split
      · exact .nil s
      · exact .one h (.nil _)
    · rw [if_neg ht, if_neg (mt ih.eq_nil_iff.2 ht)]
      exact .one h ih
  | @run s a b t u h hr ih =>
    rw [rdropWhile_append_ite, rdropWhile_append_ite p b]
    by_cases ht : t.rdropWhile p = []
    · rw [if_pos ht, if_pos (ih.eq_nil_iff.1 ht)]
      obtain ⟨v, ha, hb⟩ := hp.run h
      cases v with
      | false =>
        have hself {c : List α} (hc : ∀ x ∈ c, p x = false) : c.rdropWhile p = c :=
          List.rdropWhile_eq_self_iff.2 fun hne => by simp [hc _ (List.getLast_mem hne)]
        have hwhole : P.InStep s (a ++ []) (b ++ []) := .run h (.nil s)
        rw [List.append_nil, List.append_nil] at hwhole
        rw [hself ha, hself hb]
        exact hwhole
      | true =>
        rw [List.rdropWhile_eq_nil_iff.2 ha, List.rdropWhile_eq_nil_iff.2 hb]
        exact .nil s
    · rw [if_neg ht, if_neg (mt ih.eq_nil_iff.2 ht)]
      exact .run h ih

end InStep

/-! ## Cuts -/

section

variable {p : α → Bool} {s r v : σ} {t u t' u' t'' u'' : List α}

theorem InStep.cut_refl (h : P.InStep s t u) : P.Cut s t u s t u :=
  ⟨⟨[], [], ⟨rfl, rfl⟩, .nil s, rfl⟩, h⟩

theorem Cut.trans (h₁ : P.Cut s t u r t' u') (h₂ : P.Cut r t' u' v t'' u'') :
    P.Cut s t u v t'' u'' := by
  obtain ⟨⟨a, b, ⟨rfl, rfl⟩, hab, rfl⟩, -⟩ := h₁
  obtain ⟨⟨a', b', ⟨rfl, rfl⟩, hab', rfl⟩, h⟩ := h₂
  refine ⟨⟨a ++ a', b ++ b', ⟨?_, ?_⟩, hab.append hab', List.foldl_append⟩, h⟩
  · rw [List.append_assoc]
  · rw [List.append_assoc]

/-- What comes before a cut is told by what is left. -/
theorem Cut.inStep {a b : List α} (h : P.Cut s (a ++ t') (b ++ u') r t' u') : P.InStep s a b := by
  obtain ⟨⟨a', b', ⟨ha, hb⟩, hab, -⟩, -⟩ := h
  obtain rfl := List.append_cancel_right ha
  obtain rfl := List.append_cancel_right hb
  exact hab

theorem InStep.cut_dropWhile (hp : P.Blind p) (h : P.InStep s t u) :
    P.Cut s t u ((t.takeWhile p).foldl P.next s) (t.dropWhile p) (u.dropWhile p) where
  before := ⟨t.takeWhile p, u.takeWhile p,
    ⟨List.takeWhile_append_dropWhile.symm, List.takeWhile_append_dropWhile.symm⟩,
    (h.span hp).1, rfl⟩
  after := (h.span hp).2

/-- The state stays the same when nothing that passes the test changes it. -/
theorem InStep.cut_dropWhile_self (hp : P.Blind p) (hs : ∀ x, p x = true → P.next s x = s)
    (h : P.InStep s t u) : P.Cut s t u s (t.dropWhile p) (u.dropWhile p) := by
  have := h.cut_dropWhile hp
  rwa [foldl_next_of_forall fun x hx => hs x (List.mem_takeWhile_imp hx)] at this

/-- Two lists start alike under a test that fails on runs: with nothing that passes it, or with two
elements that go together. -/
theorem InStep.head_cases (hp : P.Solid p) (h : P.InStep s t u) :
    (t.head?.any p = false ∧ u.head?.any p = false) ∨
      ∃ x t' y u', (t = x :: t' ∧ u = y :: u') ∧ (p x = true ∧ p y = true) ∧ P.one s x y ∧
        P.Cut s t u (P.next s x) t' u' := by
  have hhead := h.any_head? hp.toBlind
  cases h with
  | nil s => exact Or.inl ⟨rfl, rfl⟩
  | @one _ x y t u h hr =>
    rw [List.head?_cons, List.head?_cons, Option.any_some, Option.any_some] at hhead ⊢
    rcases hx : p x with _ | _
    · exact Or.inl ⟨rfl, hhead ▸ hx⟩
    · exact Or.inr ⟨x, t, y, u, ⟨rfl, rfl⟩, ⟨hx, hhead ▸ hx⟩, h,
        ⟨⟨[x], [y], ⟨rfl, rfl⟩, .one h (.nil _), rfl⟩, hr⟩⟩
  | @run _ a b t u h hr =>
    left
    obtain ⟨x, a, rfl⟩ := List.exists_cons_of_ne_nil (P.ne_nil h).1
    have hx : ((x :: a ++ t).head?).any p = false := hp.run_eq_false h x List.mem_cons_self
    exact ⟨hx, hhead ▸ hx⟩

end

end Pairing

end QueryStats
