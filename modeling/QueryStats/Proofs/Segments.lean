import QueryStats.Proofs.Comments
import QueryStats.Proofs.LineBreaks

/-!
# Texts by segments

A text is a row of segments: code, quoted runs and comments of either kind, and at its end possibly
a run or a comment that is left open.  Each segment is described here by the characters that make
it up.  A block comment is one whose signs, read from left to right, open and close in pairs; the
region of a place, with its count of open comments, plays no part in this.  Stripping keeps code and
quoted runs, and leaves of a comment one blank and its line breaks.  Every text is such a row, so
this says what stripping does to any text.
-/

namespace QueryStats.Query

/-! ## The signs in a block comment -/

/-- What stands at a place of a block comment: a sign that opens a comment, one that closes one, or
any other character. -/
inductive Mark where
  | opening
  | closing
  | other (c : Char)
  deriving DecidableEq, Repr

/-- The marks of a text, each read where the one before it ends. -/
def marks : List Char → List Mark
  | [] => []
  | '/' :: '*' :: t => .opening :: marks t
  | '*' :: '/' :: t => .closing :: marks t
  | c :: t => .other c :: marks t

/-- Whether some marks close no more comments than they open, as far as they are read, and the
given number of comments that are open before them. -/
def StaysOpen (depth : Nat) (ms : List Mark) : Prop :=
  ∀ front, front <+: ms → front.count .closing ≤ depth + front.count .opening

/-- Whether some marks close what they open and the given number of comments that are open before
them, and nothing else. -/
structure Closes (depth : Nat) (ms : List Mark) : Prop where
  staysOpen : StaysOpen depth ms
  even : ms.count .closing = depth + ms.count .opening

theorem StaysOpen.tail {depth : Nat} {m : Mark} {ms : List Mark} (h : StaysOpen depth (m :: ms)) :
    ∀ front, front <+: ms → (m :: front).count .closing ≤ depth + (m :: front).count .opening :=
  fun _ hf => h _ (List.cons_prefix_cons.2 ⟨rfl, hf⟩)

theorem staysOpen_opening {depth : Nat} {ms : List Mark} :
    StaysOpen depth (.opening :: ms) ↔ StaysOpen (depth + 1) ms := by
  constructor
  · intro h front hf
    have := h.tail front hf
    simp only [List.count_cons, beq_iff_eq, reduceCtorEq, if_false, if_true] at this
    omega
  · intro h front hf
    rcases List.prefix_cons_iff.1 hf with rfl | ⟨rest, rfl, hr⟩
    · simp
    · have := h rest hr
      simp only [List.count_cons, beq_iff_eq, reduceCtorEq, if_false, if_true]
      omega

theorem staysOpen_closing {depth : Nat} {ms : List Mark} :
    StaysOpen depth (.closing :: ms) ↔ ∃ outer, depth = outer + 1 ∧ StaysOpen outer ms := by
  constructor
  · intro h
    have hpos := h.tail [] List.nil_prefix
    simp only [List.count_cons, List.count_nil, beq_iff_eq, reduceCtorEq, if_false, if_true] at hpos
    refine ⟨depth - 1, by omega, fun front hf => ?_⟩
    have := h.tail front hf
    simp only [List.count_cons, beq_iff_eq, reduceCtorEq, if_false, if_true] at this
    omega
  · rintro ⟨outer, rfl, h⟩ front hf
    rcases List.prefix_cons_iff.1 hf with rfl | ⟨rest, rfl, hr⟩
    · simp
    · have := h rest hr
      simp only [List.count_cons, beq_iff_eq, reduceCtorEq, if_false, if_true]
      omega

theorem staysOpen_other {depth : Nat} {c : Char} {ms : List Mark} :
    StaysOpen depth (.other c :: ms) ↔ StaysOpen depth ms := by
  constructor
  · intro h front hf
    have := h.tail front hf
    simpa only [List.count_cons, beq_iff_eq, reduceCtorEq, if_false, Nat.add_zero] using this
  · intro h front hf
    rcases List.prefix_cons_iff.1 hf with rfl | ⟨rest, rfl, hr⟩
    · simp
    · have := h rest hr
      simpa only [List.count_cons, beq_iff_eq, reduceCtorEq, if_false, Nat.add_zero] using this

theorem closes_opening {depth : Nat} {ms : List Mark} :
    Closes depth (.opening :: ms) ↔ Closes (depth + 1) ms := by
  constructor
  · rintro ⟨ho, he⟩
    refine ⟨staysOpen_opening.1 ho, ?_⟩
    simp only [List.count_cons, beq_iff_eq, reduceCtorEq, if_false, if_true] at he
    omega
  · rintro ⟨ho, he⟩
    refine ⟨staysOpen_opening.2 ho, ?_⟩
    simp only [List.count_cons, beq_iff_eq, reduceCtorEq, if_false, if_true]
    omega

theorem closes_closing {depth : Nat} {ms : List Mark} :
    Closes depth (.closing :: ms) ↔ ∃ outer, depth = outer + 1 ∧ Closes outer ms := by
  constructor
  · rintro ⟨ho, he⟩
    obtain ⟨outer, rfl, hs⟩ := staysOpen_closing.1 ho
    refine ⟨outer, rfl, hs, ?_⟩
    simp only [List.count_cons, beq_iff_eq, reduceCtorEq, if_false, if_true] at he
    omega
  · rintro ⟨outer, rfl, ho, he⟩
    refine ⟨staysOpen_closing.2 ⟨outer, rfl, ho⟩, ?_⟩
    simp only [List.count_cons, beq_iff_eq, reduceCtorEq, if_false, if_true]
    omega

theorem closes_other {depth : Nat} {c : Char} {ms : List Mark} :
    Closes depth (.other c :: ms) ↔ Closes depth ms := by
  constructor
  · rintro ⟨ho, he⟩
    refine ⟨staysOpen_other.1 ho, ?_⟩
    simpa only [List.count_cons, beq_iff_eq, reduceCtorEq, if_false, Nat.add_zero] using he
  · rintro ⟨ho, he⟩
    refine ⟨staysOpen_other.2 ho, ?_⟩
    simpa only [List.count_cons, beq_iff_eq, reduceCtorEq, if_false, Nat.add_zero] using he

theorem closes_nil {depth : Nat} : Closes depth [] ↔ depth = 0 := by
  constructor
  · rintro ⟨-, he⟩
    simpa using he.symm
  · rintro rfl
    refine ⟨fun front hf => ?_, rfl⟩
    rw [List.prefix_nil.1 hf]
    rfl

theorem marks_eq_nil {t : List Char} : marks t = [] ↔ t = [] := by
  fun_cases marks t <;> simp

/-- A text whose marks close the comments that are open, the last of them at its end, leaves its
line breaks, and the code begins behind it. -/
theorem stripFrom_blockComment_append {t : List Char} {depth : Nat} {ms : List Mark}
    (hm : marks t = ms ++ [.closing]) (h : Closes depth ms) (rest : List Char) :
    stripFrom (.blockComment depth) (t ++ rest) = t.filter isLineBreak ++ stripFrom .code rest := by
  fun_induction marks t generalizing depth ms with
  | case1 => simp at hm
  | case2 t ih =>
    cases ms with
    | nil => simp at hm
    | cons m ms =>
      obtain ⟨rfl, ht⟩ := List.cons.inj hm
      exact ih ht (closes_opening.1 h)
  | case3 t ih =>
    cases ms with
    | nil =>
      obtain rfl := closes_nil.1 h
      obtain rfl := marks_eq_nil.1 (List.cons.inj hm).2
      rfl
    | cons m ms =>
      obtain ⟨rfl, ht⟩ := List.cons.inj hm
      obtain ⟨outer, rfl, ho⟩ := closes_closing.1 h
      exact ih ht ho
  | case4 c t ho hc ih =>
    cases ms with
    | nil => simp at hm
    | cons m ms =>
      obtain ⟨rfl, ht⟩ := List.cons.inj hm
      -- A mark follows, so the next character is one of the text, not one of the rest.
      have hne : t ≠ [] := fun e => by simp [e, marks] at ht
      obtain ⟨d, u, rfl⟩ := List.exists_cons_of_ne_nil hne
      rw [List.cons_append, stripFrom, ih ht (closes_other.1 h), List.filter_cons (x := c),
        isLineBreak]
      · split <;> rfl
      · rintro v rfl e
        exact ho u rfl (congrArg (· :: u) (List.cons.inj e).1)
      · rintro v rfl e
        exact hc u rfl (congrArg (· :: u) (List.cons.inj e).1)

/-- A text that closes no more comments than are open leaves its line breaks. -/
theorem stripFrom_blockComment_of_staysOpen {t : List Char} {depth : Nat}
    (h : StaysOpen depth (marks t)) :
    stripFrom (.blockComment depth) t = t.filter isLineBreak := by
  fun_induction marks t generalizing depth with
  | case1 => rfl
  | case2 t ih => exact ih (staysOpen_opening.1 h)
  | case3 t ih =>
    obtain ⟨outer, rfl, ho⟩ := staysOpen_closing.1 h
    exact ih ho
  | case4 c t ho hc ih =>
    rw [stripFrom, ih (staysOpen_other.1 h), List.filter_cons, isLineBreak]
    · exact ho
    · exact hc

/-- Either a text leaves open the comments that are open, or the sign that closes the last of them
stands in it. -/
theorem staysOpen_or_exists_closes (depth : Nat) (t : List Char) :
    StaysOpen depth (marks t) ∨
      ∃ body rest ms, t = body ++ '*' :: '/' :: rest ∧
        marks (body ++ ['*', '/']) = ms ++ [.closing] ∧ Closes depth ms := by
  fun_induction marks t generalizing depth with
  | case1 =>
    refine Or.inl fun front hf => ?_
    simp [List.prefix_nil.1 hf]
  | case2 t ih =>
    rcases ih (depth + 1) with h | ⟨body, rest, ms, rfl, hm, h⟩
    · exact Or.inl (staysOpen_opening.2 h)
    · exact Or.inr ⟨'/' :: '*' :: body, rest, .opening :: ms, rfl,
        congrArg (Mark.opening :: ·) hm, closes_opening.2 h⟩
  | case3 t ih =>
    cases depth with
    | zero => exact Or.inr ⟨[], t, [], rfl, rfl, closes_nil.2 rfl⟩
    | succ outer =>
      rcases ih outer with h | ⟨body, rest, ms, rfl, hm, h⟩
      · exact Or.inl (staysOpen_closing.2 ⟨outer, rfl, h⟩)
      · exact Or.inr ⟨'*' :: '/' :: body, rest, .closing :: ms, rfl,
          congrArg (Mark.closing :: ·) hm, closes_closing.2 ⟨outer, rfl, h⟩⟩
  | case4 c t ho hc ih =>
    rcases ih depth with h | ⟨body, rest, ms, rfl, hm, h⟩
    · exact Or.inl (staysOpen_other.2 h)
    · refine Or.inr ⟨c :: body, rest, .other c :: ms, rfl, ?_, closes_other.2 h⟩
      rw [List.cons_append, marks, hm, List.cons_append]
      · rintro u rfl e
        cases body with
        | nil => exact ho _ rfl rfl
        | cons d body => exact ho _ rfl (congrArg (· :: _) (List.cons.inj e).1)
      · rintro u rfl e
        cases body with
        | nil => simp at e
        | cons d body => exact hc _ rfl (congrArg (· :: _) (List.cons.inj e).1)

/-! ## Segments -/

/-- A part of a text that is whole: code, a quoted run, or a comment. -/
inductive Segment where
  | code (text : List Char)
  | quoted (q : Char) (body : List Char)
  | lineComment (body : List Char)
  | blockComment (body : List Char)
  deriving DecidableEq, Repr

/-- What a text ends in behind its last segment: nothing, or a run or a comment that is left
open. -/
inductive Ending where
  | closed
  | quoted (q : Char) (body : List Char)
  | lineComment (body : List Char)
  | blockComment (body : List Char)
  deriving DecidableEq, Repr

namespace Segment

/-- The characters of a segment. -/
def text : Segment → List Char
  | code t => t
  | quoted q body => q :: (body ++ [q])
  | lineComment body => '-' :: '-' :: (body ++ ['\n'])
  | blockComment body => '/' :: '*' :: (body ++ ['*', '/'])

/-- What stripping leaves of a segment. -/
def stripped : Segment → List Char
  | code t => t
  | quoted q body => q :: (body ++ [q])
  | lineComment _ => [' ', '\n']
  | blockComment body => ' ' :: body.filter isLineBreak

/-- Code has no quote and no sign that opens a comment, a run ends at its first quote, a line
comment at its first line break, and a block comment where it is closed. -/
def IsWellFormed : Segment → Prop
  | code t => (∀ c ∈ t, isQuote c = false) ∧ t.IsChain fun a b => opensComment a b = false
  | quoted q body => isQuote q = true ∧ q ∉ body
  | lineComment body => '\n' ∉ body
  | blockComment body =>
    ∃ ms, marks (body ++ ['*', '/']) = ms ++ [.closing] ∧ Closes 0 ms

/-- Whether no comment opens across the end of some code and the text behind it.  In front of more
code this means a comment of either kind, in front of a line comment that the code does not end in
`-`. -/
def Joins (rest : List Char) : Segment → Prop
  | code t => ∀ c ∈ t.getLast?, ∀ d ∈ rest.head?, opensComment c d = false
  | _ => True

end Segment

namespace Ending

/-- The characters of the end of a text. -/
def text : Ending → List Char
  | closed => []
  | quoted q body => q :: body
  | lineComment body => '-' :: '-' :: body
  | blockComment body => '/' :: '*' :: body

/-- What stripping leaves of the end of a text. -/
def stripped : Ending → List Char
  | closed => []
  | quoted q body => q :: body
  | lineComment _ => [' ']
  | blockComment body => ' ' :: body.filter isLineBreak

/-- What is left open is closed nowhere. -/
def IsWellFormed : Ending → Prop
  | closed => True
  | quoted q body => isQuote q = true ∧ q ∉ body
  | lineComment body => '\n' ∉ body
  | blockComment body => StaysOpen 0 (marks body)

end Ending

/-- A text as a row of segments. -/
structure SegmentedText where
  segments : List Segment
  ending : Ending
  wellFormed : ∀ s ∈ segments, s.IsWellFormed
  ending_wellFormed : ending.IsWellFormed
  /-- No comment opens where a segment of code ends. -/
  joins : ∀ front s back, segments = front ++ s :: back →
    s.Joins (back.flatMap Segment.text ++ ending.text)

namespace SegmentedText

/-- The characters of all segments in a row. -/
def text (t : SegmentedText) : List Char := t.segments.flatMap Segment.text ++ t.ending.text

/-- What stripping leaves of all segments in a row. -/
def stripped (t : SegmentedText) : List Char :=
  t.segments.flatMap Segment.stripped ++ t.ending.stripped

/-- A text without segments. -/
def ofEnding (e : Ending) (h : e.IsWellFormed) : SegmentedText where
  segments := []
  ending := e
  wellFormed := by simp
  ending_wellFormed := h
  joins := by simp

/-- A text with one more segment in front. -/
def cons (s : Segment) (hs : s.IsWellFormed) (t : SegmentedText) (hj : s.Joins t.text) :
    SegmentedText where
  segments := s :: t.segments
  ending := t.ending
  wellFormed := List.forall_mem_cons.2 ⟨hs, t.wellFormed⟩
  ending_wellFormed := t.ending_wellFormed
  joins := by
    intro front s' back h
    rcases List.cons_eq_append_iff.1 h with ⟨rfl, he⟩ | ⟨front, rfl, he⟩
    · obtain ⟨rfl, rfl⟩ := List.cons.inj he
      exact hj
    · exact t.joins front s' back he

@[simp] theorem text_cons (s : Segment) (hs : s.IsWellFormed) (t : SegmentedText)
    (hj : s.Joins t.text) : (cons s hs t hj).text = s.text ++ t.text := by
  simp [text, cons]

end SegmentedText

/-! ## What stripping leaves of a segment -/

theorem stripFrom_quoted_append {q : Char} {body : List Char} (h : q ∉ body) (rest : List Char) :
    stripFrom (.quoted q) (body ++ q :: rest) = body ++ q :: stripFrom .code rest := by
  induction body with
  | nil => simp [stripFrom]
  | cons c body ih =>
    rw [List.mem_cons, not_or] at h
    rw [List.cons_append, stripFrom, if_neg (Ne.symm h.1), ih h.2, List.cons_append]

theorem stripFrom_quoted_of_notMem {q : Char} {body : List Char} (h : q ∉ body) :
    stripFrom (.quoted q) body = body := by
  induction body with
  | nil => rw [stripFrom]
  | cons c body ih =>
    rw [List.mem_cons, not_or] at h
    rw [stripFrom, if_neg (Ne.symm h.1), ih h.2]

theorem stripFrom_lineComment_append {body : List Char} (h : '\n' ∉ body) (rest : List Char) :
    stripFrom .lineComment (body ++ '\n' :: rest) = '\n' :: stripFrom .code rest := by
  induction body with
  | nil => simp [stripFrom]
  | cons c body ih =>
    rw [List.mem_cons, not_or] at h
    rw [List.cons_append, stripFrom, if_neg (Ne.symm h.1), ih h.2]

theorem stripFrom_lineComment_of_notMem {body : List Char} (h : '\n' ∉ body) :
    stripFrom .lineComment body = [] := by
  induction body with
  | nil => rw [stripFrom]
  | cons c body ih =>
    rw [List.mem_cons, not_or] at h
    rw [stripFrom, if_neg (Ne.symm h.1), ih h.2]

theorem stripFrom_quote_cons {q : Char} (hq : isQuote q = true) (t : List Char) :
    stripFrom .code (q :: t) = q :: stripFrom (.quoted q) t := by
  rw [stripFrom_code_cons fun d _ => opensComment_quote hq d, if_pos hq]

/-- Stripping keeps code that opens no comment, neither inside nor across its end. -/
theorem stripFrom_code_append {t : List Char} (hq : ∀ c ∈ t, isQuote c = false)
    (hc : t.IsChain fun a b => opensComment a b = false) {rest : List Char}
    (hj : ∀ c ∈ t.getLast?, ∀ d ∈ rest.head?, opensComment c d = false) :
    stripFrom .code (t ++ rest) = t ++ stripFrom .code rest := by
  induction t with
  | nil => rfl
  | cons c t ih =>
    rw [List.forall_mem_cons] at hq
    have hd : ∀ d ∈ (t ++ rest).head?, opensComment c d = false := by
      cases t with
      | nil => exact hj c rfl
      | cons d t => exact (List.isChain_cons.1 hc).1
    have ht : ∀ d ∈ t.getLast?, ∀ e ∈ rest.head?, opensComment d e = false := by
      intro d hd
      refine hj d ?_
      rw [List.getLast?_cons, Option.mem_def.1 hd]
      rfl
    rw [List.cons_append, stripFrom_code_cons hd, hq.1, if_neg Bool.false_ne_true,
      ih hq.2 (List.isChain_cons.1 hc).2 ht, List.cons_append]

theorem Segment.stripFrom_append {s : Segment} (hs : s.IsWellFormed) {rest : List Char}
    (hj : s.Joins rest) :
    stripFrom .code (s.text ++ rest) = s.stripped ++ stripFrom .code rest := by
  cases s with
  | code t => exact stripFrom_code_append hs.1 hs.2 hj
  | quoted q body =>
    rw [text, stripped, List.cons_append, List.append_assoc, stripFrom_quote_cons hs.1,
      List.singleton_append, stripFrom_quoted_append hs.2]
    simp
  | lineComment body =>
    rw [text, List.cons_append, List.cons_append, List.append_assoc, stripFrom,
      List.singleton_append, stripFrom_lineComment_append hs]
    rfl
  | blockComment body =>
    obtain ⟨ms, hm, h⟩ := hs
    rw [text, List.cons_append, List.cons_append, stripFrom, stripFrom_blockComment_append hm h,
      List.filter_append]
    simp [stripped, isLineBreak]

theorem Ending.stripFrom_text {e : Ending} (he : e.IsWellFormed) :
    stripFrom .code e.text = e.stripped := by
  cases e with
  | closed => rfl
  | quoted q body => rw [text, stripFrom_quote_cons he.1, stripFrom_quoted_of_notMem he.2, stripped]
  | lineComment body => rw [text, stripFrom, stripFrom_lineComment_of_notMem he, stripped]
  | blockComment body =>
    rw [text, stripFrom, stripFrom_blockComment_of_staysOpen he, stripped]

namespace SegmentedText

/-- Stripping leaves of a row of segments what it leaves of each. -/
theorem stripFrom_text (t : SegmentedText) : stripFrom .code t.text = t.stripped := by
  obtain ⟨ss, e, hw, he, hj⟩ := t
  unfold text stripped
  dsimp only
  induction ss with
  | nil => exact Ending.stripFrom_text he
  | cons s ss ih =>
    rw [List.forall_mem_cons] at hw
    rw [List.flatMap_cons, List.flatMap_cons, List.append_assoc, List.append_assoc,
      Segment.stripFrom_append hw.1 (hj [] s ss rfl), ih hw.2]
    rintro front s' back rfl
    exact hj (s :: front) s' back rfl

/-- Every text is a row of segments: one of code for each character outside quotes and comments. -/
theorem exists_text_eq (t : List Char) : ∃ row : SegmentedText, row.text = t := by
  induction h : t.length using Nat.strong_induction_on generalizing t with
  | _ n ih =>
  subst h
  -- What stands in front of a shorter text is a segment of its own.
  have hcons : ∀ s : Segment, s.IsWellFormed → ∀ rest : List Char, s.Joins rest →
      t = s.text ++ rest → rest.length < t.length → ∃ row : SegmentedText, row.text = t := by
    rintro s hs rest hj rfl hlt
    obtain ⟨row, rfl⟩ := ih _ hlt rest rfl
    exact ⟨cons s hs row hj, text_cons ..⟩
  have hend : ∀ e : Ending, e.IsWellFormed → t = e.text → ∃ row : SegmentedText, row.text = t :=
    fun e he ht => ⟨ofEnding e he, ht.symm⟩
  rcases t with _ | ⟨c, t⟩
  · exact hend .closed trivial rfl
  by_cases hq : isQuote c = true
  · by_cases hc : c ∈ t
    · obtain ⟨body, rest, rfl, hb⟩ := List.eq_append_cons_of_mem hc
      refine hcons (.quoted c body) ⟨hq, hb⟩ rest trivial ?_ ?_
      · simp [Segment.text]
      · simp only [List.length_cons, List.length_append]
        omega
    · exact hend (.quoted c t) ⟨hq, hc⟩ rfl
  by_cases hd : ∀ d ∈ t.head?, opensComment c d = false
  · refine hcons (.code [c]) ⟨?_, List.IsChain.singleton c⟩ t ?_ rfl (Nat.lt_succ_self _)
    · simpa using hq
    · simpa [Segment.Joins] using hd
  push Not at hd
  obtain ⟨d, hd, hopens⟩ := hd
  obtain ⟨u, rfl⟩ := List.head?_eq_some_iff.1 hd
  rw [ne_eq, Bool.not_eq_false, opensComment] at hopens
  simp only [Bool.or_eq_true, Bool.and_eq_true, decide_eq_true_eq] at hopens
  rcases hopens with ⟨rfl, rfl⟩ | ⟨rfl, rfl⟩
  · by_cases hl : '\n' ∈ u
    · obtain ⟨body, rest, rfl, hb⟩ := List.eq_append_cons_of_mem hl
      refine hcons (.lineComment body) hb rest trivial ?_ ?_
      · simp [Segment.text]
      · simp only [List.length_cons, List.length_append]
        omega
    · exact hend (.lineComment u) hl rfl
  · rcases staysOpen_or_exists_closes 0 u with h | ⟨body, rest, ms, rfl, hm, h⟩
    · exact hend (.blockComment u) h rfl
    · refine hcons (.blockComment body) ⟨ms, hm, h⟩ rest trivial ?_ ?_
      · simp [Segment.text]
      · simp only [List.length_cons, List.length_append]
        omega

end SegmentedText

/-- Stripping leaves of each text what it leaves of the segments that make it up: code and quoted
runs as they are, also a run that is left open, one blank and a line break of a line comment, and
one blank and the line breaks in it of a block comment; a line comment that is left open leaves its
blank only.  Every text is made up so. -/
theorem stripComments_segments :
    (∀ t : SegmentedText, stripComments (String.ofList t.text) = String.ofList t.stripped) ∧
      ∀ text : String, ∃ t : SegmentedText, String.ofList t.text = text := by
  constructor
  · intro t
    rw [stripComments, String.toList_ofList, t.stripFrom_text]
  · intro text
    obtain ⟨t, ht⟩ := SegmentedText.exists_text_eq text.toList
    exact ⟨t, by rw [ht, String.ofList_toList]⟩

end QueryStats.Query
