import QueryStats.Proofs.ReadBack

/-!
# Blanked text

Blanking the bodies of the quoted runs of a text keeps every byte offset.  From a place of the text
on, the blanked text shows the masked form of what follows there (`standsAt_blankQuoted`): so each
character outside the bodies, the quotes among them, stands where it stood, and each byte of a body
is a blank.  The blanked text has the quotes of the text; blanking it again changes nothing, and a
text may be cut where no run is open and blanked part by part.
-/

namespace QueryStats.Query

open Text
open String (utf8Len utf8Len_append utf8Len_cons)

/-! ## The body of a run -/

/-- Whether an offset of a text lies inside a quoted run: behind the quote that opens the run, and
in front of the next such quote, or of the end of the text. -/
def InRun (text : String) (pos : Nat) : Prop :=
  ∃ front q body back, text.toList = front ++ q :: (body ++ back) ∧ Balanced front ∧
    isQuote q = true ∧ q ∉ body ∧
    utf8Len (front ++ [q]) ≤ pos ∧ pos < utf8Len (front ++ q :: body)

/-- Where a run is open, the text can be cut at the quote that opened it. -/
theorem exists_opening {t : List Char} {q : Char} (h : quoteAfter none t = some q) :
    ∃ front body, t = front ++ q :: body ∧ Balanced front ∧ isQuote q = true ∧ q ∉ body := by
  induction t using List.reverseRecOn with
  | nil => cases h
  | append_singleton t c ih =>
    rw [quoteAfter_append, quoteAfter_cons, quoteAfter_nil] at h
    rcases hr : quoteAfter none t with _ | r
    · rw [hr, nextQuote] at h
      split at h
      · next hc =>
        obtain rfl := Option.some.inj h
        exact ⟨t, [], rfl, hr, hc, List.not_mem_nil⟩
      · cases h
    · rw [hr, nextQuote] at h
      split at h
      · cases h
      · next hc =>
        obtain rfl := Option.some.inj h
        obtain ⟨front, body, rfl, hfront, hq, hbody⟩ := ih hr
        refine ⟨front, body ++ [c], by simp, hfront, hq, ?_⟩
        simpa [hbody] using Ne.symm hc

theorem faces_maskFrom_of_notMem {q : Char} {body : List Char} (h : q ∉ body) :
    faces (maskFrom (some q) body) = List.replicate (utf8Len body) ' ' := by
  induction body with
  | nil => rfl
  | cons c body ih =>
    rw [List.mem_cons, not_or] at h
    rw [maskFrom_hidden_cons (Ne.symm h.1), faces_append, faces_hidden, ih h.2, utf8Len_cons,
      Nat.add_comm, List.replicate_add]

/-! ## Offsets -/

variable {text : String} {front back : List Char}

/-- From a place of a text on, the blanked text shows what follows there under the mask. -/
theorem standsAt_blankQuoted (h : text.toList = front ++ back) :
    StandsAt (blankQuoted text) (utf8Len front)
      (faces (maskFrom (quoteAfter none front) back)) := by
  refine ⟨faces (mask front), ?_, width_mask front⟩
  rw [blankQuoted, String.toList_ofList, h, mask, maskFrom_append, faces_append]
  rfl

/-- A character that does not belong to the body of the open run shows. -/
theorem standsAt_blankQuoted_of_shown {c : Char} (h : text.toList = front ++ c :: back)
    (hc : ∀ q ∈ quoteAfter none front, c = q) :
    ∃ shown, StandsAt (blankQuoted text) (utf8Len front) (c :: shown) := by
  have hstands := standsAt_blankQuoted h
  rcases hq : quoteAfter none front with _ | q
  · rw [hq, maskFrom_none_cons, faces_cons, face_plain] at hstands
    exact ⟨_, hstands⟩
  · obtain rfl := hc q hq
    rw [hq, maskFrom_self_cons, faces_cons, face_plain] at hstands
    exact ⟨_, hstands⟩

/-- A character that belongs to the body of the open run lies inside a run. -/
theorem inRun_of_hidden {c q : Char} (h : text.toList = front ++ c :: back)
    (hq : quoteAfter none front = some q) (hc : c ≠ q) : InRun text (utf8Len front) := by
  obtain ⟨before, body, rfl, hbefore, hquote, hbody⟩ := exists_opening hq
  have hpos := c.utf8Size_pos
  refine ⟨before, q, body ++ [c], back, by simp [h], hbefore, hquote, ?_, ?_, ?_⟩
  · simpa [hbody] using Ne.symm hc
  · simp only [utf8Len_append, utf8Len_cons, String.utf8Len_nil]
    omega
  · simp only [utf8Len_append, utf8Len_cons, String.utf8Len_nil]
    omega

/-- A blank stands at each offset inside a run. -/
theorem InRun.standsAt_blankQuoted {pos : Nat} (h : InRun text pos) :
    ∃ shown, StandsAt (blankQuoted text) pos (' ' :: shown) := by
  obtain ⟨before, q, body, after, ht, hbefore, hq, hbody, hstart, hstop⟩ := h
  have hopening : quoteAfter none (before ++ [q]) = some q := by
    rw [quoteAfter_append, hbefore, quoteAfter_cons, nextQuote, if_pos hq, quoteAfter_nil]
  have hcut : text.toList = (before ++ [q]) ++ (body ++ after) := by
    rw [ht, List.append_assoc, List.singleton_append]
  have hstands := Query.standsAt_blankQuoted hcut
  rw [hopening, maskFrom_append, faces_append, faces_maskFrom_of_notMem hbody] at hstands
  have hlen : utf8Len (before ++ q :: body) = utf8Len (before ++ [q]) + utf8Len body := by
    rw [← utf8Len_append, List.append_assoc, List.singleton_append]
  obtain ⟨i, rfl⟩ := Nat.exists_eq_add_of_le hstart
  exact hstands.blank (by omega)

/-! ## Blanking blanked text -/

theorem faces_maskFrom_faces {q : Option Char} (hq : NamesQuote q) (t : List Char) :
    faces (maskFrom q (faces (maskFrom q t))) = faces (maskFrom q t) := by
  induction t generalizing q with
  | nil => cases q <;> rfl
  | cons c t ih =>
    cases q with
    | none =>
      rw [maskFrom_none_cons, faces_cons, face_plain, maskFrom_none_cons, faces_cons, face_plain,
        ih (hq.next c)]
    | some q =>
      by_cases hc : c = q
      · subst hc
        rw [maskFrom_self_cons, faces_cons, face_plain, maskFrom_self_cons, faces_cons, face_plain,
          ih namesQuote_none]
      · have hn : q ∉ faces (hidden c) := faces_hidden_notMem hq.isQuote
        rw [maskFrom_hidden_cons hc, faces_append, maskFrom_append, faces_append,
          faces_maskFrom_of_notMem hn, quoteAfter_some_of_notMem hn, ih hq, faces_hidden,
          utf8Len_blanks]

theorem blankQuoted_blankQuoted (text : String) :
    blankQuoted (blankQuoted text) = blankQuoted text := by
  rw [blankQuoted, blankQuoted, String.toList_ofList, mask, mask,
    faces_maskFrom_faces namesQuote_none]

theorem blankQuoted_append {u : String} (h : Balanced u.toList) (v : String) :
    blankQuoted (u ++ v) = blankQuoted u ++ blankQuoted v := by
  rw [blankQuoted, String.toList_append, mask_append h, faces_append, String.ofList_append]
  rfl

/-- Blanking keeps offsets.  The blanked text is as long as the text, byte for byte, and has its
places; a character that does not lie inside a quoted run stands where it stood, and each byte
inside a run is a blank.  Blanking it again changes nothing, and a text can be blanked part by part
where it is cut outside of runs. -/
theorem blankQuoted_offsets (text : String) :
    (blankQuoted text).utf8ByteSize = text.utf8ByteSize ∧
      (∀ pos, String.Pos.Raw.IsValid text ⟨pos⟩ →
        String.Pos.Raw.IsValid (blankQuoted text) ⟨pos⟩) ∧
      (∀ pos c back, StandsAt text pos (c :: back) → ¬InRun text pos →
        ∃ shown, StandsAt (blankQuoted text) pos (c :: shown)) ∧
      (∀ pos, InRun text pos → ∃ shown, StandsAt (blankQuoted text) pos (' ' :: shown)) ∧
      blankQuoted (blankQuoted text) = blankQuoted text ∧
      ∀ u v, text = u ++ v → Balanced u.toList →
        blankQuoted text = blankQuoted u ++ blankQuoted v := by
  refine ⟨?_, ?_, ?_, fun pos h => h.standsAt_blankQuoted, blankQuoted_blankQuoted text, ?_⟩
  · rw [blankQuoted, String.utf8ByteSize_ofList]
    have h := width_mask text.toList
    rwa [← String.utf8ByteSize_ofList text.toList, String.ofList_toList] at h
  · intro pos h
    obtain ⟨back, front, ht, rfl⟩ := isValid_iff.1 h
    exact isValid_iff.2 ⟨_, standsAt_blankQuoted ht⟩
  · rintro pos c back ⟨front, ht, rfl⟩ hout
    refine standsAt_blankQuoted_of_shown ht fun q hq => ?_
    by_contra hc
    exact hout (inRun_of_hidden ht hq hc)
  · rintro u v rfl hu
    exact blankQuoted_append hu v

/-- An offset inside of a character of two bytes, in a run that does not end. -/
theorem blankQuoted_offsets_unended :
    InRun "a'é\x22b" 3 ∧ ∃ shown, StandsAt (blankQuoted "a'é\x22b") 3 (' ' :: shown) := by
  have h : InRun "a'é\x22b" 3 :=
    ⟨['a'], '\x27', ['é', '\x22', 'b'], [], by decide +kernel⟩
  exact ⟨h, (blankQuoted_offsets "a'é\x22b").2.2.2.1 3 h⟩

end QueryStats.Query
