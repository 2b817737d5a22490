import QueryStats.Query.Bucketing
import QueryStats.Query.Call

/-!
# What the recognisers leave

A recogniser that succeeds read at least one cell at the front of its text and left the rest as it
was; `Leaves t rest` says that.  So a scan that goes on with the rest comes to an end.
-/

namespace QueryStats.Query

open Text

/-- `rest` is what is left of `t` after at least one cell. -/
def Leaves (t rest : List Cell) : Prop := ∃ read, read ≠ [] ∧ t = read ++ rest

theorem Leaves.length_lt {t rest : List Cell} (h : Leaves t rest) : rest.length < t.length := by
  obtain ⟨read, hne, rfl⟩ := h
  have := List.length_pos_iff.2 hne
  simp; omega

theorem Leaves.suffix {t rest : List Cell} (h : Leaves t rest) : rest <:+ t := by
  obtain ⟨read, -, rfl⟩ := h
  exact ⟨read, rfl⟩

theorem Leaves.of_suffix {t u rest : List Cell} (h : Leaves u rest) (hu : u <:+ t) :
    Leaves t rest := by
  obtain ⟨read, hne, rfl⟩ := h
  obtain ⟨before, rfl⟩ := hu
  exact ⟨before ++ read, by simp [hne], by simp⟩

theorem Leaves.trans_suffix {t u rest : List Cell} (h : Leaves t u) (hr : rest <:+ u) :
    Leaves t rest := by
  obtain ⟨read, hne, rfl⟩ := h
  obtain ⟨more, rfl⟩ := hr
  exact ⟨read ++ more, by simp [hne], by simp⟩

theorem skipBlanks_suffix (t : List Cell) : skipBlanks t <:+ t := List.dropWhile_suffix _

theorem skipChar?_leaves {c : Char} {t rest : List Cell} (h : skipChar? c t = some rest) :
    Leaves t rest := by
  cases t with
  | nil => simp [skipChar?] at h
  | cons x t =>
    simp only [skipChar?] at h
    split at h
    · obtain rfl := Option.some.inj h
      exact ⟨[x], by simp, rfl⟩
    · simp at h

theorem skipSomeBlanks?_suffix {t rest : List Cell} (h : skipSomeBlanks? t = some rest) :
    rest <:+ t := by
  cases t with
  | nil => simp [skipSomeBlanks?] at h
  | cons x t =>
    simp only [skipSomeBlanks?] at h
    split at h
    · obtain rfl := Option.some.inj h
      exact (skipBlanks_suffix t).trans (List.suffix_cons x t)
    · simp at h

theorem skipKeyword?_suffix {keyword : String} {t rest : List Cell}
    (h : skipKeyword? keyword t = some rest) : rest <:+ t := by
  obtain ⟨word, rfl, -⟩ := dropKeyword?_append h
  exact List.suffix_append _ _

theorem run?_append {p : Char → Bool} {t run rest : List Cell} (h : run? p t = some (run, rest)) :
    run ≠ [] ∧ t = run ++ rest := by
  simp only [run?] at h
  split at h
  · simp at h
  · next x r heq =>
    simp only [Option.some.injEq, Prod.mk.injEq] at h
    obtain ⟨rfl, rfl⟩ := h
    exact ⟨by simp, by rw [← heq, List.takeWhile_append_dropWhile]⟩

theorem quoted?_append {q : Char} {t name rest : List Cell}
    (h : quoted? q t = some (name, rest)) : name ≠ [] ∧ t = name ++ rest := by
  cases t with
  | nil => simp [quoted?] at h
  | cons x t =>
    simp only [quoted?] at h
    split at h
    · split at h
      · simp at h
      · next y r heq =>
        simp only [Option.some.injEq, Prod.mk.injEq] at h
        obtain ⟨rfl, rfl⟩ := h
        refine ⟨by simp, ?_⟩
        rw [List.append_assoc, List.singleton_append, ← heq, List.cons_append,
          List.takeWhile_append_dropWhile]
    · simp at h

theorem name?_append {p : Char → Bool} {t name rest : List Cell}
    (h : name? p t = some (name, rest)) : name ≠ [] ∧ t = name ++ rest := by
  simp only [name?, Option.or_eq_some_iff] at h
  rcases h with h | ⟨-, h | ⟨-, h⟩⟩
  · exact quoted?_append h
  · exact quoted?_append h
  · exact run?_append h

theorem leaves_of_append {t read rest : List Cell} (h : read ≠ [] ∧ t = read ++ rest) :
    Leaves t rest := ⟨read, h⟩

theorem alias?_suffix {t name rest : List Cell} (h : alias? t = some (name, rest)) :
    rest <:+ t := by
  simp only [alias?, Option.bind_eq_bind, Option.bind_eq_some_iff] at h
  obtain ⟨t₁, h₁, t₂, h₂, t₃, h₃, h₄⟩ := h
  exact (leaves_of_append (name?_append h₄)).suffix.trans
    ((skipSomeBlanks?_suffix h₃).trans
      ((skipKeyword?_suffix h₂).trans (skipSomeBlanks?_suffix h₁)))

theorem optionalAlias_suffix (t : List Cell) : (optionalAlias t).2 <:+ t := by
  simp only [optionalAlias]
  split
  · next h => exact alias?_suffix h
  · exact List.suffix_rfl

theorem call?_leaves {t rest : List Cell} {call : Call} (h : call? t = some (call, rest)) :
    Leaves t rest := by
  simp only [call?, Option.bind_eq_bind, Option.bind_eq_some_iff] at h
  obtain ⟨⟨name, r₁⟩, h₁, h⟩ := h
  simp only at h
  split at h
  · simp at h
  · simp only [Option.bind_eq_some_iff] at h
    obtain ⟨r₂, h₂, r₃, h₃, h⟩ := h
    simp only [Option.pure_def, Option.some.injEq, Prod.mk.injEq] at h
    obtain ⟨-, rfl⟩ := h
    refine (leaves_of_append (run?_append h₁)).trans_suffix ((optionalAlias_suffix r₃).trans ?_)
    exact (skipChar?_leaves h₃).suffix.trans
      ((List.dropWhile_suffix _).trans (skipChar?_leaves h₂).suffix)

theorem fraction_suffix (t : List Cell) : (fraction t).2 <:+ t := by
  simp only [fraction]
  split
  · next digits rest x t h =>
    obtain ⟨u, hu, h⟩ := Option.bind_eq_some_iff.1 h
    exact (leaves_of_append (run?_append h)).suffix.trans (skipChar?_leaves hu).suffix
  · exact List.suffix_rfl

theorem amount?_leaves {t amount rest : List Cell} (h : amount? t = some (amount, rest)) :
    Leaves t rest := by
  simp only [amount?, Option.bind_eq_bind, Option.bind_eq_some_iff] at h
  obtain ⟨⟨whole, r⟩, h₁, h⟩ := h
  simp only [Option.pure_def, Option.some.injEq, Prod.mk.injEq] at h
  obtain ⟨-, rfl⟩ := h
  exact (leaves_of_append (run?_append h₁)).trans_suffix (fraction_suffix r)

theorem bucketing?_leaves {t rest : List Cell} {b : Bucketing}
    (h : bucketing? t = some (b, rest)) : Leaves t rest := by
  simp only [bucketing?, Option.bind_eq_bind, Option.bind_eq_some_iff] at h
  obtain ⟨t₁, h₁, t₂, h₂, ⟨field, t₃⟩, h₃, t₄, h₄, ⟨amount, t₅⟩, h₅, ⟨unit, t₆⟩, h₆, t₇, h₇, h⟩ := h
  simp only [Option.pure_def, Option.some.injEq, Prod.mk.injEq] at h
  obtain ⟨-, rfl⟩ := h
  have s₁ := (skipBlanks_suffix t₁).trans (skipKeyword?_suffix h₁)
  refine ((skipChar?_leaves h₂).of_suffix s₁).trans_suffix ?_
  refine (optionalAlias_suffix t₇).trans ((skipChar?_leaves h₇).suffix.trans ?_)
  refine (skipBlanks_suffix t₆).trans ((leaves_of_append (run?_append h₆)).suffix.trans ?_)
  refine (skipBlanks_suffix t₅).trans ((amount?_leaves h₅).suffix.trans ?_)
  refine (skipBlanks_suffix t₄).trans ((skipChar?_leaves h₄).suffix.trans ?_)
  refine (skipBlanks_suffix t₃).trans ((leaves_of_append (name?_append h₃)).suffix.trans ?_)
  exact skipBlanks_suffix t₂

end QueryStats.Query
