import Mathlib.Data.List.Chain
import QueryStats.Proofs.Masking
import QueryStats.Query.Comment

/-!
# Comments and quoted runs

A text is free of comments when no two neighbours on its masked form open one.  Stripping leaves
such a text as it is (`stripFrom_of_commentFree`), and whatever it leaves is free of comments
(`commentFree_stripFrom`).  Stripping goes on from one part of a text to the next through the region
in which the first part ends (`stripFrom_append`), and it ends in a quoted run just where the text
does (`quoteAfter_stripFrom`).
-/

namespace QueryStats.Query

/-- Whether two characters in a row open a comment. -/
def opensComment (a b : Char) : Bool := a = '-' && b = '-' || a = '/' && b = '*'

/-- Whether no comment opens in a text outside its quoted runs. -/
def CommentFree (t : List Char) : Prop :=
  (faces (mask t)).IsChain fun a b => opensComment a b = false

instance (t : List Char) : Decidable (CommentFree t) :=
  inferInstanceAs (Decidable (List.IsChain _ _))

theorem opensComment_left {a : Char} (h₁ : a ≠ '-') (h₂ : a ≠ '/') (b : Char) :
    opensComment a b = false := by
  simp [opensComment, h₁, h₂]

theorem opensComment_right {b : Char} (h₁ : b ≠ '-') (h₂ : b ≠ '*') (a : Char) :
    opensComment a b = false := by
  simp [opensComment, h₁, h₂]

theorem opensComment_quote {q : Char} (h : isQuote q = true) (b : Char) :
    opensComment q b = false := by
  refine opensComment_left ?_ ?_ b <;> rintro rfl <;> exact absurd h (by decide)

/-! ## Stripping one character -/

theorem stripFrom_code_cons {c : Char} {t : List Char}
    (h : ∀ d ∈ t.head?, opensComment c d = false) :
    stripFrom .code (c :: t) = c :: stripFrom (if isQuote c then .quoted c else .code) t := by
  rw [stripFrom]
  · rintro u rfl rfl
    cases h _ rfl
  · rintro u rfl rfl
    cases h _ rfl

/-- The region in which a text that starts in a given region ends. -/
def regionAfter : Region → List Char → Region
  | r, [] => r
  | .code, '-' :: '-' :: t => regionAfter .lineComment t
  | .code, '/' :: '*' :: t => regionAfter (.blockComment 0) t
  | .code, c :: t => regionAfter (if isQuote c then .quoted c else .code) t
  | .quoted q, c :: t => regionAfter (if c = q then .code else .quoted q) t
  | .lineComment, c :: t => regionAfter (if c = '\n' then .code else .lineComment) t
  | .blockComment depth, '/' :: '*' :: t => regionAfter (.blockComment (depth + 1)) t
  | .blockComment depth, '*' :: '/' :: t =>
    regionAfter (match depth with | 0 => .code | outer + 1 => .blockComment outer) t
  | .blockComment depth, _ :: t => regionAfter (.blockComment depth) t

theorem append_cons_ne_cons {c e : Char} (hc : c ≠ e) {s : List Char} (hs : ∀ u, s ≠ e :: u)
    (t u : List Char) : s ++ c :: t ≠ e :: u := by
  cases s with
  | nil => exact fun h => hc (List.cons.inj h).1
  | cons d s => exact fun h => hs s (congrArg (· :: s) (List.cons.inj h).1)

/-- Stripping goes on after a part of a text in the region in which the part ends, if the next
character is none of those that make up the signs of comments. -/
theorem stripFrom_append {c : Char} (h₁ : c ≠ '-') (h₂ : c ≠ '*') (h₃ : c ≠ '/') (r : Region)
    (s t : List Char) :
    stripFrom r (s ++ c :: t) = stripFrom r s ++ stripFrom (regionAfter r s) (c :: t) := by
  fun_induction regionAfter r s with
  | case1 r => cases r <;> simp [stripFrom]
  | case2 s ih => simp [stripFrom, ih]
  | case3 s ih => simp [stripFrom, ih]
  | case4 d s hd hs ih =>
    rw [List.cons_append, stripFrom, stripFrom, ih, List.cons_append]
    · exact hd
    · exact hs
    · exact fun u e => append_cons_ne_cons h₁ (fun u => hd u e) t u
    · exact fun u e => append_cons_ne_cons h₂ (fun u => hs u e) t u
  | case5 q d s ih => simp [stripFrom, ih]
  | case6 d s ih =>
    by_cases hd : d = '\n'
    · simp only [hd, if_true] at ih
      simp [stripFrom, hd, ih]
    · simp only [hd, if_false] at ih
      simp [stripFrom, hd, ih]
  | case7 depth s ih => simp [stripFrom, ih]
  | case8 depth s ih => cases depth <;> simp [stripFrom, ih]
  | case9 depth d s hd hs ih =>
    rw [List.cons_append, stripFrom, stripFrom, ih]
    · split <;> rfl
    · exact hd
    · exact hs
    · exact fun u e => append_cons_ne_cons h₂ (fun u => hd u e) t u
    · exact fun u e => append_cons_ne_cons h₃ (fun u => hs u e) t u

/-! ## Regions and runs -/

/-- The quote whose run a region is. -/
def Region.quote? : Region → Option Char
  | .quoted q => some q
  | _ => none

/-- The region outside quotes, or the run of a quote. -/
def Region.ofQuote : Option Char → Region
  | none => .code
  | some q => .quoted q

theorem Region.quote?_if_isQuote (c : Char) :
    (if isQuote c then Region.quoted c else .code).quote? = nextQuote none c := by
  by_cases h : isQuote c = true <;> simp [h, quote?, nextQuote]

theorem Region.quote?_if_eq (c q : Char) :
    (if c = q then Region.code else .quoted q).quote? = nextQuote (some q) c := by
  by_cases h : c = q <;> simp [h, quote?, nextQuote]

/-- Stripping keeps the quotes, so it ends in the run in which the text ends. -/
theorem quoteAfter_stripFrom (r : Region) (t : List Char) :
    quoteAfter r.quote? (stripFrom r t) = (regionAfter r t).quote? := by
  fun_induction regionAfter r t with
  | case1 r => cases r <;> rw [stripFrom] <;> rfl
  | case2 t ih =>
    rw [stripFrom]
    exact ih
  | case3 t ih =>
    rw [stripFrom]
    exact ih
  | case4 c t hd hs ih =>
    rw [stripFrom]
    · rw [Region.quote?_if_isQuote] at ih
      exact ih
    · exact hd
    · exact hs
  | case5 q c t ih =>
    rw [stripFrom]
    rw [Region.quote?_if_eq] at ih
    exact ih
  | case6 c t ih =>
    rw [stripFrom]
    by_cases hc : c = '\n'
    · subst hc
      exact ih
    · simp only [hc, if_false] at ih ⊢
      exact ih
  | case7 depth t ih =>
    rw [stripFrom]
    exact ih
  | case8 depth t ih =>
    cases depth <;> rw [stripFrom] <;> exact ih
  | case9 depth c t hd hs ih =>
    rw [stripFrom]
    · split
      · next hc =>
        rw [Bool.or_eq_true, decide_eq_true_eq, decide_eq_true_eq] at hc
        rcases hc with rfl | rfl <;> exact ih
      · exact ih
    · exact hd
    · exact hs

/-! ## Texts free of comments -/

theorem CommentFree.of_append {s t : List Char} (hs : Balanced s) (h : CommentFree (s ++ t)) :
    CommentFree s ∧ CommentFree t := by
  rw [CommentFree, mask_append hs, faces_append, List.isChain_append] at h
  exact ⟨h.1, h.2.1⟩

theorem Region.ofQuote_nextQuote_none (c : Char) :
    (if isQuote c then Region.quoted c else .code) = .ofQuote (nextQuote none c) := by
  by_cases h : isQuote c = true <;> simp [h, ofQuote, nextQuote]

theorem Region.ofQuote_nextQuote_some (q c : Char) :
    (if c = q then Region.code else .quoted q) = .ofQuote (nextQuote (some q) c) := by
  by_cases h : c = q <;> simp [h, ofQuote, nextQuote]

theorem stripFrom_ofQuote {q : Option Char} (hq : NamesQuote q) {t : List Char}
    (h : (faces (maskFrom q t)).IsChain fun a b => opensComment a b = false) :
    stripFrom (.ofQuote q) t = t := by
  induction t generalizing q with
  | nil => cases q <;> rw [Region.ofQuote, stripFrom]
  | cons c t ih =>
    cases q with
    | none =>
      rw [maskFrom_none_cons, faces_cons, face_plain, List.isChain_cons] at h
      have hd : ∀ d ∈ t.head?, opensComment c d = false := by
        intro d hd
        by_cases hc : isQuote c = true
        · exact opensComment_quote hc d
        · rw [nextQuote_none_of_not_quote (Bool.not_eq_true _ ▸ hc)] at h
          cases t with
          | nil => cases hd
          | cons e t => exact h.1 d hd
      rw [Region.ofQuote, stripFrom_code_cons hd, Region.ofQuote_nextQuote_none, ih (hq.next c) h.2]
    | some q =>
      rw [Region.ofQuote, stripFrom, Region.ofQuote_nextQuote_some, ih (hq.next c)]
      by_cases hc : c = q
      · subst hc
        rw [maskFrom_self_cons, faces_cons, List.isChain_cons] at h
        rw [nextQuote, if_pos rfl]
        exact h.2
      · rw [maskFrom_hidden_cons hc, faces_append, List.isChain_append] at h
        rw [nextQuote, if_neg hc]
        exact h.2.1

/-- Stripping leaves a text without comments as it is. -/
theorem stripFrom_of_commentFree {t : List Char} (h : CommentFree t) : stripFrom .code t = t :=
  stripFrom_ofQuote namesQuote_none h

/-- The first character that stripping leaves is that of the text, or the blank of a comment. -/
theorem eq_blank_or_mem_head?_of_stripFrom {t : List Char} {c : Char}
    (h : c ∈ (stripFrom .code t).head?) : c = ' ' ∨ c ∈ t.head? := by
  cases t with
  | nil => exact absurd h (by simp [stripFrom])
  | cons d t =>
    by_cases hd : ∀ e ∈ t.head?, opensComment d e = false
    · rw [stripFrom_code_cons hd] at h
      exact Or.inr h
    · push Not at hd
      obtain ⟨e, he, hde⟩ := hd
      obtain ⟨u, rfl⟩ := List.head?_eq_some_iff.1 he
      rw [ne_eq, Bool.not_eq_false, opensComment] at hde
      simp only [Bool.or_eq_true, Bool.and_eq_true, decide_eq_true_eq] at hde
      rcases hde with ⟨rfl, rfl⟩ | ⟨rfl, rfl⟩ <;> rw [stripFrom] at h <;>
        exact Or.inl (Option.some.inj h).symm

theorem opensComment_stripFrom {c : Char} {t : List Char}
    (h : ∀ d ∈ t.head?, opensComment c d = false) :
    ∀ d ∈ (stripFrom .code t).head?, opensComment c d = false := by
  intro d hd
  rcases eq_blank_or_mem_head?_of_stripFrom hd with rfl | hd
  · exact opensComment_right (by decide) (by decide) c
  · exact h d hd

theorem opensComment_of_ne {c : Char} {t : List Char} (hd : ∀ u, c = '-' → t = '-' :: u → False)
    (hs : ∀ u, c = '/' → t = '*' :: u → False) : ∀ d ∈ t.head?, opensComment c d = false := by
  intro d hm
  obtain ⟨u, rfl⟩ := List.head?_eq_some_iff.1 hm
  rw [← Bool.not_eq_true, opensComment]
  simp only [Bool.or_eq_true, Bool.and_eq_true, decide_eq_true_eq]
  rintro (⟨rfl, rfl⟩ | ⟨rfl, rfl⟩)
  · exact hd u rfl rfl
  · exact hs u rfl rfl

theorem head?_faces_mask (t : List Char) : (faces (mask t)).head? = t.head? := by
  cases t <;> rfl

theorem isChain_cons_of_inert {c : Char} (h₁ : c ≠ '-') (h₂ : c ≠ '/') {t : List Char}
    (ht : t.IsChain fun a b => opensComment a b = false) :
    (c :: t).IsChain fun a b => opensComment a b = false :=
  List.isChain_cons.2 ⟨fun b _ => opensComment_left h₁ h₂ b, ht⟩

theorem isChain_hidden_append {c : Char} {t : List Cell}
    (ht : (faces t).IsChain fun a b => opensComment a b = false) :
    (faces (hidden c ++ t)).IsChain fun a b => opensComment a b = false := by
  rw [hidden, List.cons_append, faces_cons]
  refine isChain_cons_of_inert (c := ' ') (by decide) (by decide) ?_
  generalize c.utf8Size - 1 = n
  induction n with
  | zero => exact ht
  | succ n ih => exact isChain_cons_of_inert (c := ' ') (by decide) (by decide) ih

/-- No comment opens in what stripping leaves, wherever it starts. -/
theorem isChain_stripFrom {r : Region} (hr : NamesQuote r.quote?) (t : List Char) :
    (faces (maskFrom r.quote? (stripFrom r t))).IsChain fun a b => opensComment a b = false := by
  fun_induction stripFrom r t with
  | case1 r => cases r.quote? <;> exact List.IsChain.nil
  | case2 t ih => exact isChain_cons_of_inert (by decide) (by decide) (ih hr)
  | case3 t ih => exact isChain_cons_of_inert (by decide) (by decide) (ih hr)
  | case4 c t hd hs ih =>
    rw [Region.quote?_if_isQuote] at ih
    refine List.isChain_cons.2 ⟨fun b hb => ?_, ih (hr.next c)⟩
    by_cases hc : isQuote c = true
    · exact opensComment_quote hc b
    · rw [if_neg hc, if_neg hc] at hb
      have hm := head?_faces_mask (stripFrom .code t)
      exact opensComment_stripFrom (opensComment_of_ne hd hs) b (hm ▸ hb)
  | case5 q c t ih =>
    rw [Region.quote?_if_eq] at ih
    by_cases hc : c = q
    · subst hc
      rw [Region.quote?, maskFrom_self_cons]
      rw [nextQuote, if_pos rfl] at ih
      exact List.isChain_cons.2 ⟨fun b _ => opensComment_quote hr.isQuote b, ih namesQuote_none⟩
    · rw [Region.quote?, maskFrom_hidden_cons hc]
      rw [nextQuote, if_neg hc] at ih
      exact isChain_hidden_append (ih hr)
  | case6 t ih => exact isChain_cons_of_inert (by decide) (by decide) (ih hr)
  | case7 c t hc ih => exact ih hr
  | case8 depth t ih => exact ih hr
  | case9 depth t ih => cases depth <;> exact ih hr
  | case10 depth c t ho hc hn ih =>
    rw [Bool.or_eq_true, decide_eq_true_eq, decide_eq_true_eq] at hn
    rcases hn with rfl | rfl <;> exact isChain_cons_of_inert (by decide) (by decide) (ih hr)
  | case11 depth c t ho hc hn ih => exact ih hr

/-- What stripping leaves is free of comments. -/
theorem commentFree_stripFrom (t : List Char) : CommentFree (stripFrom .code t) :=
  isChain_stripFrom (r := .code) namesQuote_none t

/-! ## Texts without comments, part by part -/

/-- A comment opens in two parts in a row only where it opens in one of them, or between them. -/
theorem CommentFree.append {s t : List Char} (hb : Balanced s) (hs : CommentFree s)
    (ht : CommentFree t) (hd : ∀ c ∈ t.head?, c ≠ '-' ∧ c ≠ '*') : CommentFree (s ++ t) := by
  rw [CommentFree, mask_append hb, faces_append, List.isChain_append]
  refine ⟨hs, ht, fun a _ b hb => ?_⟩
  cases t with
  | nil => cases hb
  | cons c t =>
    obtain rfl : c = b := Option.some.inj hb
    exact opensComment_right (hd c rfl).1 (hd c rfl).2 a

/-- Whether a character is neither a quote nor the first sign of a comment. -/
def isInert (c : Char) : Bool := !(isQuote c || c = '-' || c = '/')

theorem CommentFree.inert_append {s t : List Char} (hs : ∀ c ∈ s, isInert c = true)
    (ht : CommentFree t) : CommentFree (s ++ t) := by
  induction s with
  | nil => exact ht
  | cons c s ih =>
    rw [List.forall_mem_cons, isInert, Bool.not_eq_true', Bool.or_eq_false_iff,
      Bool.or_eq_false_iff, decide_eq_false_iff_not, decide_eq_false_iff_not] at hs
    rw [List.cons_append, CommentFree, mask_cons hs.1.1.1]
    exact isChain_cons_of_inert hs.1.1.2 hs.1.2 (ih hs.2)

theorem isQuote_of_isInert {c : Char} (h : isInert c = true) : isQuote c = false := by
  rw [isInert, Bool.not_eq_true', Bool.or_eq_false_iff, Bool.or_eq_false_iff] at h
  exact h.1.1

theorem balanced_of_inert {t : List Char} (h : ∀ c ∈ t, isInert c = true) : Balanced t :=
  balanced_of_unquoted fun c hc => isQuote_of_isInert (h c hc)

theorem commentFree_nil : CommentFree [] := List.IsChain.nil

theorem commentFree_of_inert {t : List Char} (h : ∀ c ∈ t, isInert c = true) : CommentFree t := by
  rw [← List.append_nil t]
  exact CommentFree.inert_append h commentFree_nil

theorem commentFree_quoted {q : Char} (hq : isQuote q = true) {body : List Char} (h : q ∉ body) :
    CommentFree (q :: (body ++ [q])) := by
  have hf : ∀ c ∈ faces (maskFrom (some q) body), c = ' ' := by
    intro c hc
    obtain ⟨x, hx, rfl⟩ := List.mem_map.1 hc
    exact face_of_mem_maskFrom_some h hx
  have hi : ∀ u, (∀ c ∈ u, c = ' ') →
      (u ++ [q]).IsChain fun a b => opensComment a b = false := by
    intro u hu
    induction u with
    | nil => exact List.IsChain.singleton q
    | cons c u ih =>
      rw [List.forall_mem_cons] at hu
      obtain rfl := hu.1
      exact isChain_cons_of_inert (c := ' ') (by decide) (by decide) (ih hu.2)
  rw [CommentFree, mask_quoted hq h, faces_cons, face_plain, faces_append]
  exact List.isChain_cons.2 ⟨fun b _ => opensComment_quote hq b, hi _ hf⟩

end QueryStats.Query
