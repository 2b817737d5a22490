import Mathlib.Data.List.Basic
import QueryStats.Query.Mask

/-!
# Quoted runs under the mask

A text is read with a state: the quote whose run is open, if any.  `quoteAfter` gives the state
after a text, and a text is `Balanced` when it leaves no run open.  The mask keeps the state: the
faces of masked text open and close the runs that the text does.  So masked text can be cut where no
run is open, and its two parts are the masks of two texts (`maskFrom_eq_append`); every cell that
shows neither a blank nor a quote stands at such a place (`mask_cut`).
-/

namespace QueryStats.Query

/-! ## The open run -/

/-- The quote whose run is open after one more character. -/
def nextQuote : Option Char → Char → Option Char
  | none, c => if isQuote c then some c else none
  | some q, c => if c = q then none else some q

/-- The quote whose run is open after a text. -/
def quoteAfter (q : Option Char) (t : List Char) : Option Char := t.foldl nextQuote q

/-- What is said of the characters of a text is decided along the text. -/
instance (priority := high) decidableForallMem {p : Char → Prop} [DecidablePred p]
    (t : List Char) : Decidable (∀ c ∈ t, p c) := List.decidableBAll p t

/-- Whether every quoted run of a text is closed in it. -/
def Balanced (t : List Char) : Prop := quoteAfter none t = none

instance (t : List Char) : Decidable (Balanced t) := inferInstanceAs (Decidable (_ = _))

@[simp] theorem quoteAfter_nil (q : Option Char) : quoteAfter q [] = q := rfl

@[simp] theorem quoteAfter_cons (q : Option Char) (c : Char) (t : List Char) :
    quoteAfter q (c :: t) = quoteAfter (nextQuote q c) t := rfl

@[simp] theorem quoteAfter_append (q : Option Char) (s t : List Char) :
    quoteAfter q (s ++ t) = quoteAfter (quoteAfter q s) t := List.foldl_append

theorem nextQuote_none_of_not_quote {c : Char} (h : isQuote c = false) :
    nextQuote none c = none := by
  simp [nextQuote, h]

theorem quoteAfter_some_of_notMem {q : Char} {t : List Char} (h : q ∉ t) :
    quoteAfter (some q) t = some q := by
  induction t with
  | nil => rfl
  | cons c t ih =>
    rw [List.mem_cons, not_or] at h
    rw [quoteAfter_cons, nextQuote, if_neg (Ne.symm h.1), ih h.2]

/-- Whether what a state names, if anything, is a quote. -/
def NamesQuote (q : Option Char) : Prop := ∀ c ∈ q, isQuote c = true

theorem namesQuote_none : NamesQuote none := by simp [NamesQuote]

theorem NamesQuote.isQuote {q : Char} (h : NamesQuote (some q)) : isQuote q = true := h q rfl

theorem NamesQuote.next {q : Option Char} (hq : NamesQuote q) (c : Char) :
    NamesQuote (nextQuote q c) := by
  intro d hd
  cases q with
  | none =>
    by_cases hc : Query.isQuote c = true
    · rw [nextQuote, if_pos hc, Option.mem_some] at hd
      exact hd ▸ hc
    · rw [nextQuote, if_neg hc] at hd
      cases hd
  | some q =>
    by_cases hc : c = q
    · rw [nextQuote, if_pos hc] at hd
      cases hd
    · rw [nextQuote, if_neg hc, Option.mem_some] at hd
      exact hd ▸ hq.isQuote

theorem NamesQuote.after {q : Option Char} (hq : NamesQuote q) (t : List Char) :
    NamesQuote (quoteAfter q t) := by
  induction t generalizing q with
  | nil => exact hq
  | cons c t ih => exact ih (hq.next c)

theorem balanced_nil : Balanced [] := rfl

theorem Balanced.append {s t : List Char} (hs : Balanced s) (ht : Balanced t) :
    Balanced (s ++ t) := by
  rw [Balanced, quoteAfter_append, hs, ht]

/-- What follows a closed part is closed when the whole is. -/
theorem Balanced.of_append {s t : List Char} (hs : Balanced s) (h : Balanced (s ++ t)) :
    Balanced t := by
  rwa [Balanced, quoteAfter_append, hs] at h

theorem balanced_of_unquoted {t : List Char} (h : ∀ c ∈ t, isQuote c = false) : Balanced t := by
  induction t with
  | nil => rfl
  | cons c t ih =>
    rw [List.forall_mem_cons] at h
    rw [Balanced, quoteAfter_cons, nextQuote_none_of_not_quote h.1]
    exact ih h.2

theorem balanced_quoted {q : Char} (hq : isQuote q = true) {body : List Char} (h : q ∉ body) :
    Balanced (q :: (body ++ [q])) := by
  rw [Balanced, quoteAfter_cons, nextQuote, if_pos hq, quoteAfter_append,
    quoteAfter_some_of_notMem h, quoteAfter_cons, nextQuote, if_pos rfl, quoteAfter_nil]

/-! ## Masking part by part -/

/-- The cells of a text that shows as itself. -/
def shown (t : List Char) : List Cell := t.map Cell.plain

@[simp] theorem shown_nil : shown [] = [] := rfl

@[simp] theorem shown_cons (c : Char) (t : List Char) : shown (c :: t) = .plain c :: shown t := rfl

@[simp] theorem shown_append (s t : List Char) : shown (s ++ t) = shown s ++ shown t :=
  List.map_append

@[simp] theorem faces_nil : faces [] = [] := rfl

@[simp] theorem faces_cons (x : Cell) (t : List Cell) : faces (x :: t) = x.face :: faces t := rfl

@[simp] theorem face_plain (c : Char) : (Cell.plain c).face = c := rfl

@[simp] theorem faces_shown (t : List Char) : faces (shown t) = t := by
  induction t with
  | nil => rfl
  | cons c t ih => rw [shown_cons, faces_cons, ih, face_plain]

@[simp] theorem sources_shown (t : List Char) : sources (shown t) = t := by
  induction t with
  | nil => rfl
  | cons c t ih => exact congrArg (c :: ·) ih

theorem face_of_mem_hidden {c : Char} {x : Cell} (h : x ∈ hidden c) : x.face = ' ' := by
  rw [hidden, List.mem_cons] at h
  rcases h with rfl | h
  · rfl
  · rw [List.eq_of_mem_replicate h]

/-- A hidden character shows a blank for each of its bytes. -/
theorem faces_hidden (c : Char) : faces (hidden c) = List.replicate c.utf8Size ' ' := by
  obtain ⟨n, hn⟩ := Nat.exists_eq_add_of_le' c.utf8Size_pos
  rw [hidden, hn, faces_cons, faces, List.map_replicate, Nat.add_sub_cancel, List.replicate_succ]

theorem faces_hidden_notMem {q c : Char} (hq : isQuote q = true) : q ∉ faces (hidden c) := by
  intro h
  obtain ⟨x, hx, rfl⟩ := List.mem_map.1 h
  rw [face_of_mem_hidden hx] at hq
  exact absurd hq (by decide)

theorem maskFrom_none_cons (c : Char) (t : List Char) :
    maskFrom none (c :: t) = .plain c :: maskFrom (nextQuote none c) t := rfl

theorem maskFrom_self_cons (q : Char) (t : List Char) :
    maskFrom (some q) (q :: t) = .plain q :: maskFrom none t := by
  rw [maskFrom, if_pos rfl]

theorem maskFrom_hidden_cons {q c : Char} (h : c ≠ q) (t : List Char) :
    maskFrom (some q) (c :: t) = hidden c ++ maskFrom (some q) t := by
  rw [maskFrom, if_neg h]

theorem maskFrom_append (q : Option Char) (s t : List Char) :
    maskFrom q (s ++ t) = maskFrom q s ++ maskFrom (quoteAfter q s) t := by
  induction s generalizing q with
  | nil => cases q <;> cases t <;> rfl
  | cons c s ih =>
    cases q with
    | none => rw [List.cons_append, maskFrom_none_cons, ih, maskFrom_none_cons]; rfl
    | some q =>
      by_cases h : c = q
      · subst h
        rw [List.cons_append, maskFrom_self_cons, ih, maskFrom_self_cons, quoteAfter_cons,
          nextQuote, if_pos rfl]
        rfl
      · rw [List.cons_append, maskFrom_hidden_cons h, ih, maskFrom_hidden_cons h, quoteAfter_cons,
          nextQuote, if_neg h, List.append_assoc]

@[simp] theorem mask_nil : mask [] = [] := rfl

theorem mask_append {s : List Char} (h : Balanced s) (t : List Char) :
    mask (s ++ t) = mask s ++ mask t := by
  rw [mask, maskFrom_append, h]
  rfl

theorem mask_cons {c : Char} (h : isQuote c = false) (t : List Char) :
    mask (c :: t) = .plain c :: mask t := by
  rw [mask, maskFrom_none_cons, nextQuote_none_of_not_quote h]
  rfl

theorem mask_of_unquoted {t : List Char} (h : ∀ c ∈ t, isQuote c = false) : mask t = shown t := by
  induction t with
  | nil => rfl
  | cons c t ih =>
    rw [List.forall_mem_cons] at h
    rw [mask_cons h.1, ih h.2, shown_cons]

theorem mask_unquoted_append {s : List Char} (h : ∀ c ∈ s, isQuote c = false) (t : List Char) :
    mask (s ++ t) = shown s ++ mask t := by
  rw [mask_append (balanced_of_unquoted h), mask_of_unquoted h]

/-- The body of a run shows blanks only. -/
theorem face_of_mem_maskFrom_some {q : Char} {t : List Char} (h : q ∉ t) {x : Cell}
    (hx : x ∈ maskFrom (some q) t) : x.face = ' ' := by
  induction t with
  | nil => cases hx
  | cons c t ih =>
    rw [List.mem_cons, not_or] at h
    rw [maskFrom_hidden_cons (Ne.symm h.1), List.mem_append] at hx
    exact hx.elim face_of_mem_hidden (ih h.2)

theorem mask_quoted {q : Char} (hq : isQuote q = true) {body : List Char} (h : q ∉ body) :
    mask (q :: (body ++ [q])) = .plain q :: (maskFrom (some q) body ++ [.plain q]) := by
  rw [mask, maskFrom_none_cons, nextQuote, if_pos hq, maskFrom_append, quoteAfter_some_of_notMem h,
    maskFrom_self_cons]
  rfl

/-! ## The state is seen on the faces -/

theorem quoteAfter_faces_maskFrom {q : Option Char} (hq : NamesQuote q)
    (t : List Char) : quoteAfter q (faces (maskFrom q t)) = quoteAfter q t := by
  induction t generalizing q with
  | nil => cases q <;> rfl
  | cons c t ih =>
    cases q with
    | none => exact ih (hq.next c)
    | some q =>
      by_cases h : c = q
      · subst h
        rw [maskFrom_self_cons, faces_cons, face_plain, quoteAfter_cons, quoteAfter_cons, nextQuote,
          if_pos rfl]
        exact ih namesQuote_none
      · rw [maskFrom_hidden_cons h, faces_append, quoteAfter_append,
          quoteAfter_some_of_notMem (faces_hidden_notMem hq.isQuote), quoteAfter_cons, nextQuote,
          if_neg h]
        exact ih hq

/-- In a run only blanks show, and the quote that closes it. -/
theorem face_of_open_run {q : Option Char} (hq : NamesQuote q) {s : List Char}
    {a b : List Cell} {x : Cell} (h : maskFrom q s = a ++ x :: b) {r : Char}
    (hr : quoteAfter q (faces a) = some r) : x.face = ' ' ∨ x.face = r := by
  induction s generalizing q a with
  | nil => cases q <;> simp [maskFrom] at h
  | cons c s ih =>
    cases q with
    | none =>
      cases a with
      | nil => cases hr
      | cons y a =>
        rw [maskFrom_none_cons, List.cons_append, List.cons.injEq] at h
        obtain ⟨rfl, h⟩ := h
        exact ih (hq.next c) h hr
    | some q =>
      by_cases hc : c = q
      · subst hc
        rw [maskFrom_self_cons] at h
        cases a with
        | nil =>
          rw [List.nil_append, List.cons.injEq] at h
          rw [← h.1]
          exact Or.inr (Option.some.inj hr)
        | cons y a =>
          rw [List.cons_append, List.cons.injEq] at h
          obtain ⟨rfl, h⟩ := h
          rw [faces_cons, face_plain, quoteAfter_cons, nextQuote, if_pos rfl] at hr
          exact ih namesQuote_none h hr
      · rw [maskFrom_hidden_cons hc, List.append_eq_append_iff] at h
        rcases h with ⟨a', rfl, h⟩ | ⟨b', hb, h⟩
        · rw [faces_append, quoteAfter_append,
            quoteAfter_some_of_notMem (faces_hidden_notMem hq.isQuote)] at hr
          exact ih hq h hr
        · cases b' with
          | nil =>
            rw [List.append_nil] at hb
            rw [← hb, quoteAfter_some_of_notMem (faces_hidden_notMem hq.isQuote)] at hr
            exact ih hq (a := []) h.symm hr
          | cons y b' =>
            rw [List.cons_append, List.cons.injEq] at h
            exact Or.inl (face_of_mem_hidden (c := c) (by rw [hb, h.1]; simp))

/-- Masked text is cut into two masks where no run is open. -/
theorem maskFrom_eq_append {q : Option Char} (hq : NamesQuote q) {s : List Char}
    {a b : List Cell} (h : maskFrom q s = a ++ b) (ha : quoteAfter q (faces a) = none) :
    ∃ s₁ s₂, s = s₁ ++ s₂ ∧ a = maskFrom q s₁ ∧ b = mask s₂ := by
  induction s generalizing q a with
  | nil =>
    have h' : a ++ b = [] := by rw [← h]; cases q <;> rfl
    obtain ⟨rfl, rfl⟩ := List.append_eq_nil_iff.1 h'
    exact ⟨[], [], rfl, by cases q <;> rfl, rfl⟩
  | cons c s ih =>
    cases q with
    | none =>
      cases a with
      | nil => exact ⟨[], c :: s, rfl, rfl, h.symm⟩
      | cons y a =>
        rw [maskFrom_none_cons, List.cons_append, List.cons.injEq] at h
        obtain ⟨rfl, h⟩ := h
        obtain ⟨s₁, s₂, rfl, rfl, rfl⟩ := ih (hq.next c) h ha
        exact ⟨c :: s₁, s₂, rfl, rfl, rfl⟩
    | some q =>
      by_cases hc : c = q
      · subst hc
        rw [maskFrom_self_cons] at h
        cases a with
        | nil => cases ha
        | cons y a =>
          rw [List.cons_append, List.cons.injEq] at h
          obtain ⟨rfl, h⟩ := h
          rw [faces_cons, face_plain, quoteAfter_cons, nextQuote, if_pos rfl] at ha
          obtain ⟨s₁, s₂, rfl, rfl, rfl⟩ := ih namesQuote_none h ha
          exact ⟨c :: s₁, s₂, rfl, (maskFrom_self_cons _ _).symm, rfl⟩
      · rw [maskFrom_hidden_cons hc, List.append_eq_append_iff] at h
        rcases h with ⟨a', rfl, h⟩ | ⟨b', hb, -⟩
        · rw [faces_append, quoteAfter_append,
            quoteAfter_some_of_notMem (faces_hidden_notMem hq.isQuote)] at ha
          obtain ⟨s₁, s₂, rfl, rfl, rfl⟩ := ih hq h ha
          exact ⟨c :: s₁, s₂, rfl, (maskFrom_hidden_cons hc _).symm, rfl⟩
        · have hn : q ∉ faces a := fun hm =>
            faces_hidden_notMem (c := c) hq.isQuote (by rw [hb, faces_append]; simp [hm])
          rw [quoteAfter_some_of_notMem hn] at ha
          cases ha

theorem mask_eq_append {s : List Char} {a b : List Cell} (h : mask s = a ++ b)
    (ha : quoteAfter none (faces a) = none) :
    ∃ s₁ s₂, s = s₁ ++ s₂ ∧ Balanced s₁ ∧ a = mask s₁ ∧ b = mask s₂ := by
  obtain ⟨s₁, s₂, rfl, rfl, rfl⟩ := maskFrom_eq_append namesQuote_none h ha
  rw [quoteAfter_faces_maskFrom namesQuote_none] at ha
  exact ⟨s₁, s₂, rfl, ha, rfl, rfl⟩

/-- A cell that shows neither a blank nor a quote stands outside quotes. -/
theorem mask_cut {s : List Char} {a b : List Cell} {x : Cell} (h : mask s = a ++ x :: b)
    (hb : x.face ≠ ' ') (hx : isQuote x.face = false) :
    ∃ s₁ s₂, s = s₁ ++ x.face :: s₂ ∧ Balanced s₁ ∧ a = mask s₁ ∧ x :: b = mask (x.face :: s₂) := by
  have ha : quoteAfter none (faces a) = none := by
    rcases hr : quoteAfter none (faces a) with _ | r
    · rfl
    · have hq := (namesQuote_none.after (faces a)) r hr
      rcases face_of_open_run namesQuote_none h hr with hf | hf
      · exact absurd hf hb
      · rw [hf, hq] at hx
        cases hx
  obtain ⟨s₁, s₂, rfl, h₁, h₂, h₃⟩ := mask_eq_append h ha
  cases s₂ with
  | nil => cases h₃
  | cons c s₂ =>
    have hc : x = .plain c := (List.cons.inj h₃).1
    subst hc
    exact ⟨s₁, s₂, rfl, h₁, h₂, h₃⟩

end QueryStats.Query
