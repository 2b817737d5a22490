import Mathlib.Data.List.Basic
import Mathlib.Data.List.TakeWhile
import QueryStats.Query.Name

/-!
# Trimmed texts and the names they spell

A text is trimmed when it neither starts nor ends with white space (`trim_of_ends`); trimming gives
such a text (`trim_trim`).  What a name as written spells is trimmed, and a field never holds a back
quote.  A name between two quotes spells what stands between them.
-/

namespace QueryStats.Text

theorem trimStart_of_head {t : List Char} (h : ∀ c ∈ t.head?, isBlank c = false) :
    trimStart t = t := by
  cases t with
  | nil => rfl
  | cons c t => rw [trimStart, List.dropWhile_cons, h c rfl, if_neg Bool.false_ne_true]

theorem trimEnd_of_last {t : List Char} (h : ∀ c ∈ t.getLast?, isBlank c = false) :
    trimEnd t = t := by
  rw [trimEnd]
  have := trimStart_of_head (t := t.reverse) (by rwa [List.head?_reverse])
  rw [trimStart] at this
  rw [this, List.reverse_reverse]

theorem trim_of_ends {t : List Char} (h₁ : ∀ c ∈ t.head?, isBlank c = false)
    (h₂ : ∀ c ∈ t.getLast?, isBlank c = false) : trim t = t := by
  rw [trim, trimStart_of_head h₁, trimEnd_of_last h₂]

/-- Trimming gives what stands between the white space at the two ends. -/
theorem trim_append_of_ends {a b t : List Char} (ha : ∀ c ∈ a, isBlank c = true)
    (hb : ∀ c ∈ b, isBlank c = true) (h₁ : ∀ c ∈ t.head?, isBlank c = false)
    (h₂ : ∀ c ∈ t.getLast?, isBlank c = false) : trim (a ++ (t ++ b)) = t := by
  have hstart : trimStart (a ++ (t ++ b)) = trimStart (t ++ b) := List.dropWhile_append_of_pos ha
  have hend : trimEnd (t ++ b) = trimEnd t := by
    unfold trimEnd
    rw [List.reverse_append, List.dropWhile_append_of_pos fun c hc => hb c (List.mem_reverse.1 hc)]
  rw [trim, hstart]
  cases t with
  | nil =>
    have hnil : trimStart b = [] := List.dropWhile_eq_nil_iff.2 hb
    rw [List.nil_append, hnil]
    rfl
  | cons c t => rw [trimStart_of_head (by exact h₁), hend, trimEnd_of_last h₂]

theorem head_trimStart (t : List Char) : ∀ c ∈ (trimStart t).head?, isBlank c = false := by
  intro c hc
  have := List.head?_dropWhile_not isBlank t
  rw [trimStart] at hc
  rw [Option.mem_def] at hc
  rw [hc] at this
  exact this

theorem isPrefix_trimEnd (t : List Char) : trimEnd t <+: t := by
  rw [trimEnd, ← List.reverse_suffix, List.reverse_reverse]
  exact List.dropWhile_suffix _

theorem head_trim (t : List Char) : ∀ c ∈ (trim t).head?, isBlank c = false := by
  intro c hc
  obtain ⟨u, hu⟩ := isPrefix_trimEnd (trimStart t)
  refine head_trimStart t c ?_
  rw [← hu]
  exact List.mem_head?_append_of_mem_head? hc

theorem last_trim (t : List Char) : ∀ c ∈ (trim t).getLast?, isBlank c = false := by
  intro c hc
  rw [trim, trimEnd, List.getLast?_reverse] at hc
  exact head_trimStart (trimStart t).reverse c hc

/-- Trimming gives a trimmed text. -/
theorem trim_trim (t : List Char) : trim (trim t) = trim t :=
  trim_of_ends (head_trim t) (last_trim t)

theorem mem_of_mem_trim {t : List Char} {c : Char} (h : c ∈ trim t) : c ∈ t :=
  (List.dropWhile_suffix _).mem ((isPrefix_trimEnd (trimStart t)).mem h)

/-- Trimming takes white space from the two ends. -/
theorem exists_append_trim (t : List Char) : ∃ a b, t = a ++ (trim t ++ b) ∧
    (∀ c ∈ a, isBlank c = true) ∧ ∀ c ∈ b, isBlank c = true := by
  have hend (u : List Char) : u = trimEnd u ++ (u.reverse.takeWhile isBlank).reverse := by
    rw [trimEnd, ← List.reverse_append, List.takeWhile_append_dropWhile, List.reverse_reverse]
  refine ⟨t.takeWhile isBlank, ((trimStart t).reverse.takeWhile isBlank).reverse, ?_, ?_, ?_⟩
  · rw [trim, ← hend, trimStart, List.takeWhile_append_dropWhile]
  · exact fun c hc => List.mem_takeWhile_imp hc
  · exact fun c hc => List.mem_takeWhile_imp (List.mem_reverse.1 hc)

theorem trim_eq_nil_iff {t : List Char} : trim t = [] ↔ ∀ c ∈ t, isBlank c = true := by
  constructor
  · intro h c hc
    obtain ⟨a, b, ht, ha, hb⟩ := exists_append_trim t
    rw [ht, h, List.nil_append] at hc
    exact (List.mem_append.1 hc).elim (ha c) (hb c)
  · intro h
    have := trim_append_of_ends (b := []) (t := []) h nofun nofun nofun
    rwa [List.append_nil, List.append_nil] at this

end QueryStats.Text

namespace QueryStats.Query

open Text

theorem isBlank_quote {q : Char} (h : isQuote q = true) : isBlank q = false := by
  simp only [isQuote, Bool.or_eq_true, decide_eq_true_eq] at h
  rcases h with (rfl | rfl) | rfl <;> decide

theorem trim_quoted {q : Char} (h : isQuote q = true) (body : List Char) :
    trim (q :: (body ++ [q])) = q :: (body ++ [q]) := by
  refine trim_of_ends (fun c hc => ?_) fun c hc => ?_
  · exact Option.some.inj hc ▸ isBlank_quote h
  · rw [← List.cons_append, List.getLast?_concat] at hc
    exact Option.some.inj hc ▸ isBlank_quote h

theorem peel?_quoted (q : Char) (body : List Char) : peel? q (q :: (body ++ [q])) = some body := by
  simp [peel?]

theorem peel?_of_head {q : Char} {t : List Char} (h : q ∉ t.head?) : peel? q t = none := by
  cases t with
  | nil => rfl
  | cons c t =>
    have hc : c ≠ q := fun e => h (congrArg some e)
    simp [peel?, hc]

/-! ## Aliases -/

theorem trim_unquoteChars (raw : List Char) : trim (unquoteChars raw) = unquoteChars raw :=
  trim_trim _

theorem unquoteChars_backQuoted (body : List Char) :
    unquoteChars (backQuote :: (body ++ [backQuote])) = trim body := by
  rw [unquoteChars, trim_quoted (by decide), peel?_quoted]
  rfl

theorem unquoteChars_doubleQuoted (body : List Char) :
    unquoteChars (doubleQuote :: (body ++ [doubleQuote])) = trim body := by
  rw [unquoteChars, trim_quoted (by decide), peel?_of_head (by simp [backQuote, doubleQuote]),
    peel?_quoted]
  rfl

theorem unquoteChars_unquoted {t : List Char} (h : ∀ c ∈ t, isQuote c = false) :
    unquoteChars t = trim t := by
  have hn {q : Char} (hq : isQuote q = true) : q ∉ (trim t).head? := fun hm => by
    rw [h q (mem_of_mem_trim (List.mem_of_mem_head? hm))] at hq
    cases hq
  rw [unquoteChars, peel?_of_head (hn (by decide)), peel?_of_head (hn (by decide))]
  exact trim_trim t

/-! ## Fields -/

theorem trim_fieldNameChars (raw : List Char) : trim (fieldNameChars raw) = fieldNameChars raw :=
  trim_trim _

theorem backQuote_notMem_fieldNameChars (raw : List Char) : backQuote ∉ fieldNameChars raw := by
  intro h
  have := mem_of_mem_trim h
  simp at this

theorem filter_backQuote_of_notMem {t : List Char} (h : backQuote ∉ t) :
    t.filter (· != backQuote) = t := by
  rw [List.filter_eq_self]
  intro c hc
  exact bne_iff_ne.2 fun e => h (e ▸ hc)

theorem fieldNameChars_backQuoted {body : List Char} (h : backQuote ∉ body) :
    fieldNameChars (backQuote :: (body ++ [backQuote])) = trim body := by
  rw [fieldNameChars, trim_quoted (by decide), peel?_of_head (by simp [backQuote, doubleQuote])]
  simp [filter_backQuote_of_notMem h]

theorem fieldNameChars_doubleQuoted {body : List Char} (h : backQuote ∉ body) :
    fieldNameChars (doubleQuote :: (body ++ [doubleQuote])) = trim body := by
  rw [fieldNameChars, trim_quoted (by decide), peel?_quoted, Option.getD_some,
    filter_backQuote_of_notMem h]

theorem fieldNameChars_unquoted {t : List Char} (h : ∀ c ∈ t, isQuote c = false) :
    fieldNameChars t = trim t := by
  have hn {q : Char} (hq : isQuote q = true) : q ∉ trim t := fun hm => by
    rw [h q (mem_of_mem_trim hm)] at hq
    cases hq
  rw [fieldNameChars, peel?_of_head fun hm => hn (by decide) (List.mem_of_mem_head? hm)]
  rw [Option.getD_none, filter_backQuote_of_notMem (hn (by decide))]
  exact trim_trim t

end QueryStats.Query
