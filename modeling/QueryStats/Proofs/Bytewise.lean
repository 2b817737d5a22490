import QueryStats.Proofs.Comments
import QueryStats.Proofs.Offsets
import QueryStats.Proofs.Sessions

/-!
# Comments byte by byte

Comments can be stripped on the bytes of a text.  The signs of comments, the quotes and the line
breaks are single bytes, and none of them occurs in the form of another character.  So a scan of the
bytes may pass a comment byte by byte, also in the middle of a character, and the places where it
copies a character are places of the text (`writes_stripFrom`).  Stripping keeps the line feeds
and does not make the text longer.
-/

namespace QueryStats.Query

open Command (encode encode_append encode_singleton)
open String (utf8Len utf8Len_append utf8Len_cons utf8EncodeChar)
open Text

/-! ## Bytes of characters -/

/-- Whether a character is its own byte in the UTF-8 form of a text. -/
def IsByte (a : Char) : Prop := a.val.toNat < 128

instance (a : Char) : Decidable (IsByte a) := inferInstanceAs (Decidable (_ < _))

theorem IsByte.utf8Size {a : Char} (ha : IsByte a) : a.utf8Size = 1 := by
  rw [Char.utf8Size_eq_one_iff, UInt32.le_iff_toNat_le]
  exact Nat.le_of_lt_succ ha

theorem IsByte.utf8EncodeChar {a : Char} (ha : IsByte a) : utf8EncodeChar a = [a.toUInt8] :=
  String.utf8EncodeChar_eq_singleton ha.utf8Size

theorem IsByte.ofNat_toUInt8 {a : Char} (ha : IsByte a) : Char.ofNat a.toUInt8.toNat = a := by
  have h : a.toUInt8.toNat = a.toNat := by
    rw [Char.toUInt8, UInt32.toNat_toUInt8]
    exact Nat.mod_eq_of_lt (Nat.lt_trans ha (by decide))
  rw [h, Char.ofNat_toNat]

theorem isByte_of_isQuote {q : Char} (hq : isQuote q = true) : IsByte q := by
  simp only [isQuote, Bool.or_eq_true, decide_eq_true_eq] at hq
  rcases hq with (rfl | rfl) | rfl <;> decide

/-- The byte of a character occurs in the form of no other. -/
theorem IsByte.notMem_utf8EncodeChar {a c : Char} (ha : IsByte a) (h : a ≠ c) :
    a.toUInt8 ∉ String.utf8EncodeChar c := by
  have hc : a.val.toNat ≠ c.val.toNat := fun hn => h (Char.ext (UInt32.toNat_inj.1 hn))
  have hbyte {n : Nat} (hn : n % 256 ≠ a.val.toNat) : a.toUInt8 ≠ UInt8.ofNat n := by
    intro heq
    have := congrArg UInt8.toNat heq
    rw [Char.toUInt8, UInt32.toNat_toUInt8, UInt8.toNat_ofNat'] at this
    unfold IsByte at ha
    omega
  unfold IsByte at ha
  fun_cases String.utf8EncodeChar c with
  | case1 v hv =>
    rw [List.mem_singleton]
    exact hbyte (by omega)
  | case2 v =>
    simp only [List.mem_cons, List.not_mem_nil, or_false, not_or]
    exact ⟨hbyte (by omega), hbyte (by omega)⟩
  | case3 v =>
    simp only [List.mem_cons, List.not_mem_nil, or_false, not_or]
    exact ⟨hbyte (by omega), hbyte (by omega), hbyte (by omega)⟩
  | case4 v =>
    simp only [List.mem_cons, List.not_mem_nil, or_false, not_or]
    exact ⟨hbyte (by omega), hbyte (by omega), hbyte (by omega), hbyte (by omega)⟩

theorem encode_cons (c : Char) (t : List Char) : encode (c :: t) = utf8EncodeChar c ++ encode t :=
  List.flatMap_cons ..

theorem IsByte.encode_cons {a : Char} (ha : IsByte a) (t : List Char) :
    encode (a :: t) = a.toUInt8 :: encode t := by
  rw [Query.encode_cons, ha.utf8EncodeChar, List.singleton_append]

/-- The first byte of a character is that of another only if they are the same. -/
theorem IsByte.eq_toUInt8_iff {a c : Char} (ha : IsByte a) {b : UInt8} {bs : List UInt8}
    (h : String.utf8EncodeChar c = b :: bs) : b = a.toUInt8 ↔ c = a := by
  constructor
  · rintro rfl
    by_contra hc
    refine ha.notMem_utf8EncodeChar (Ne.symm hc) ?_
    rw [h]
    exact List.mem_cons_self
  · rintro rfl
    rw [ha.utf8EncodeChar] at h
    exact (List.cons.inj h).1.symm

theorem IsByte.head?_encode {a : Char} (ha : IsByte a) (t : List Char) :
    (encode t).head? = some a.toUInt8 ↔ t.head? = some a := by
  cases t with
  | nil => simp [encode]
  | cons c t =>
    obtain ⟨b, bs, h⟩ := List.exists_cons_of_ne_nil (String.utf8EncodeChar_ne_nil (c := c))
    rw [Query.encode_cons, h, List.cons_append, List.head?_cons, List.head?_cons, Option.some_inj,
      Option.some_inj]
    exact ha.eq_toUInt8_iff h

/-! ## The scan of the bytes -/

/-- A character of a stripped text: the blank that stands for a comment or a line break of one, or a
character that is copied from the given offset. -/
inductive Written where
  | sign (c : Char)
  | copied (pos : Nat) (c : Char)
  deriving DecidableEq, Repr

def Written.char : Written → Char
  | sign c => c
  | copied _ c => c

/-- Whether the first of some bytes is that of a character. -/
def startsWith (a : Char) (bytes : List UInt8) : Bool := bytes.head? = some a.toUInt8

/-- The region behind a character that begins with the given byte and is copied. -/
def Region.behindByte (b : UInt8) : Region → Region
  | code =>
    if b = '\x27'.toUInt8 || b = doubleQuote.toUInt8 || b = backQuote.toUInt8 then
      quoted (Char.ofNat b.toNat)
    else code
  | quoted q => if b = q.toUInt8 then code else quoted q
  | r => r

/-- The region behind the sign that closes a block comment with others around it. -/
def Region.behindClosing : Nat → Region
  | 0 => code
  | outer + 1 => blockComment outer

/-- What stripping writes from an offset of a text on, given the bytes there; `none` where a
character has to be copied from an offset that is no place of the text. -/
def stripBytes? (text : String) : Region → Nat → List UInt8 → Option (List Written)
  | _, _, [] => some []
  | .lineComment, pos, b :: bs =>
    if b = '\n'.toUInt8 then (.sign '\n' :: ·) <$> stripBytes? text .code (pos + 1) bs
    else stripBytes? text .lineComment (pos + 1) bs
  | .blockComment depth, pos, b :: bs =>
    if b = '\n'.toUInt8 || b = '\r'.toUInt8 then
      (.sign (Char.ofNat b.toNat) :: ·) <$> stripBytes? text (.blockComment depth) (pos + 1) bs
    else if b = '/'.toUInt8 && startsWith '*' bs then
      stripBytes? text (.blockComment (depth + 1)) (pos + 2) bs.tail
    else if b = '*'.toUInt8 && startsWith '/' bs then
      stripBytes? text (.behindClosing depth) (pos + 2) bs.tail
    else stripBytes? text (.blockComment depth) (pos + 1) bs
  | r, pos, b :: bs =>
    if r = .code && b = '-'.toUInt8 && startsWith '-' bs then
      (.sign ' ' :: ·) <$> stripBytes? text .lineComment (pos + 2) bs.tail
    else if r = .code && b = '/'.toUInt8 && startsWith '*' bs then
      (.sign ' ' :: ·) <$> stripBytes? text (.blockComment 0) (pos + 2) bs.tail
    else do
      let (_, rest) ← splitAtByte? [] text.toList pos
      let c := rest.head?.getD ' '
      (.copied pos c :: ·) <$>
        stripBytes? text (r.behindByte b) (pos + c.utf8Size) ((b :: bs).drop c.utf8Size)
termination_by _ _ bytes => bytes.length
decreasing_by
  all_goals simp only [List.length_cons, List.length_tail, List.length_drop]
  all_goals first | omega | exact Nat.sub_lt (Nat.succ_pos _) (Char.utf8Size_pos _)

/-! ## Comments, byte by byte -/

variable {text : String}

theorem startsWith_encode {a : Char} (ha : IsByte a) (t : List Char) :
    startsWith a (encode t) = true ↔ t.head? = some a := by
  rw [startsWith, decide_eq_true_eq, ha.head?_encode]

/-- The bytes of a line comment are passed one by one up to its line feed. -/
theorem stripBytes?_lineComment_append {bs : List UInt8} (h : '\n'.toUInt8 ∉ bs) (pos : Nat)
    (rest : List UInt8) :
    stripBytes? text .lineComment pos (bs ++ rest) =
      stripBytes? text .lineComment (pos + bs.length) rest := by
  induction bs generalizing pos with
  | nil => rfl
  | cons b bs ih =>
    rw [List.mem_cons, not_or] at h
    rw [List.cons_append, stripBytes?, if_neg (Ne.symm h.1), ih h.2, List.length_cons,
      Nat.add_assoc, Nat.add_comm 1]

/-- The bytes of a block comment are passed one by one where none is a sign or a line break. -/
theorem stripBytes?_blockComment_append {bs : List UInt8}
    (h : ∀ a ∈ ['\n', '\r', '/', '*'], a.toUInt8 ∉ bs) (depth pos : Nat) (rest : List UInt8) :
    stripBytes? text (.blockComment depth) pos (bs ++ rest) =
      stripBytes? text (.blockComment depth) (pos + bs.length) rest := by
  induction bs generalizing pos with
  | nil => rfl
  | cons b bs ih =>
    have hb : ∀ a ∈ ['\n', '\r', '/', '*'], b ≠ a.toUInt8 :=
      fun a ha hba => h a ha (hba ▸ List.mem_cons_self)
    have hbs : ∀ a ∈ ['\n', '\r', '/', '*'], a.toUInt8 ∉ bs :=
      fun a ha hm => h a ha (List.mem_cons_of_mem _ hm)
    simp only [List.forall_mem_cons] at hb
    obtain ⟨hn, hr, hs, ht, -⟩ := hb
    rw [List.cons_append, stripBytes?]
    simp only [hn, hr, hs, ht, decide_false, Bool.or_self, Bool.false_and, Bool.false_eq_true,
      if_false]
    rw [ih hbs, List.length_cons, Nat.add_assoc, Nat.add_comm 1]

theorem drop_utf8Size_encode_cons (c : Char) (t : List Char) :
    (encode (c :: t)).drop c.utf8Size = encode t := by
  rw [encode_cons, List.drop_left' (String.length_utf8EncodeChar c)]

/-- The region behind a copied character is that behind its first byte. -/
theorem Region.behindByte_eq {c : Char} {b : UInt8} {bs : List UInt8}
    (h : String.utf8EncodeChar c = b :: bs) :
    behindByte b code = if isQuote c then quoted c else code := by
  have h₁ := IsByte.eq_toUInt8_iff (a := '\x27') (by decide) h
  have h₂ := IsByte.eq_toUInt8_iff (a := doubleQuote) (by decide) h
  have h₃ := IsByte.eq_toUInt8_iff (a := backQuote) (by decide) h
  simp only [behindByte, h₁, h₂, h₃]
  change (if isQuote c = true then _ else _) = _
  split
  · next hq =>
    have hc := isByte_of_isQuote hq
    rw [hc.utf8EncodeChar] at h
    rw [← (List.cons.inj h).1, hc.ofNat_toUInt8]
  · rfl

theorem Region.behindByte_quoted {q c : Char} (hq : isQuote q = true) {b : UInt8} {bs : List UInt8}
    (h : String.utf8EncodeChar c = b :: bs) :
    behindByte b (quoted q) = if c = q then code else quoted q := by
  simp only [behindByte, (isByte_of_isQuote hq).eq_toUInt8_iff h]

/-- A character outside comments that opens none is copied from where it stands. -/
theorem stripBytes?_copy {pos : Nat} {c : Char} {t : List Char} (ht : StandsAt text pos (c :: t))
    {r : Region}
    (hr : r = .code ∧ (∀ d ∈ t.head?, opensComment c d = false) ∨ ∃ q, r = .quoted q)
    {b : UInt8} {bs : List UInt8} (h : utf8EncodeChar c = b :: bs) :
    stripBytes? text r pos (encode (c :: t)) =
      (.copied pos c :: ·) <$>
        stripBytes? text (r.behindByte b) (pos + c.utf8Size) (encode t) := by
  have hdrop := drop_utf8Size_encode_cons c t
  rw [encode_cons, h, List.cons_append] at hdrop ⊢
  have hsign : ∀ a d, IsByte a → IsByte d → opensComment a d = true →
      ¬(r = .code && b = a.toUInt8 && startsWith d (bs ++ encode t)) = true := by
    intro a d ha hd hopens
    simp only [Bool.and_eq_true, decide_eq_true_eq, ha.eq_toUInt8_iff h]
    rintro ⟨⟨rfl, rfl⟩, hs⟩
    rw [ha.utf8EncodeChar] at h
    obtain ⟨-, rfl⟩ := List.cons.inj h
    rw [List.nil_append, startsWith_encode hd] at hs
    rcases hr with ⟨-, hr⟩ | ⟨q, hr⟩
    · exact absurd hopens (by rw [hr d hs]; decide)
    · cases hr
  obtain ⟨front, hfront⟩ := ht.splitAtByte?
  rw [stripBytes?, hfront, if_neg (hsign '-' '-' (by decide) (by decide) rfl),
    if_neg (hsign '/' '*' (by decide) (by decide) rfl)]
  · simp only [Option.bind_eq_bind, Option.bind_some, List.head?_cons, Option.getD_some]
    rw [hdrop]
  · rintro rfl
    simp at hr
  · rintro depth rfl
    simp at hr

/-- Whether a scan of the bytes from an offset on writes the given text, and copies each character
from a place where it stands. -/
def Writes (text : String) (r : Region) (pos : Nat) (bytes : List UInt8) (t : List Char) : Prop :=
  ∃ out, stripBytes? text r pos bytes = some out ∧ out.map Written.char = t ∧
    ∀ pos c, .copied pos c ∈ out → ∃ back, StandsAt text pos (c :: back)

section
variable {r r' : Region} {pos pos' : Nat} {bytes bytes' : List UInt8} {t : List Char} {c : Char}

theorem Writes.sign
    (h : stripBytes? text r pos bytes = (.sign c :: ·) <$> stripBytes? text r' pos' bytes')
    (ht : Writes text r' pos' bytes' t) : Writes text r pos bytes (c :: t) := by
  obtain ⟨out, hout, rfl, hc⟩ := ht
  refine ⟨.sign c :: out, by rw [h, hout]; rfl, rfl, fun pos d hd => hc pos d ?_⟩
  simpa using hd

theorem Writes.copied {back : List Char} (hpos : StandsAt text pos (c :: back))
    (h : stripBytes? text r pos bytes = (.copied pos c :: ·) <$> stripBytes? text r' pos' bytes')
    (ht : Writes text r' pos' bytes' t) : Writes text r pos bytes (c :: t) := by
  obtain ⟨out, hout, rfl, hc⟩ := ht
  refine ⟨.copied pos c :: out, by rw [h, hout]; rfl, rfl, fun pos d hd => ?_⟩
  rcases List.mem_cons.1 hd with hd | hd
  · obtain ⟨rfl, rfl⟩ := Written.copied.inj hd
    exact ⟨back, hpos⟩
  · exact hc pos d hd

theorem Writes.passed (h : stripBytes? text r pos bytes = stripBytes? text r' pos' bytes')
    (ht : Writes text r' pos' bytes' t) : Writes text r pos bytes t := by
  obtain ⟨out, hout, hc⟩ := ht
  exact ⟨out, h.trans hout, hc⟩

end

/-! ## One step of the scan -/

/-- Two signs that open a comment outside comments. -/
theorem stripBytes?_code_opening {a b : Char} (h : opensComment a b = true) (pos : Nat)
    (t : List Char) :
    stripBytes? text .code pos (encode (a :: b :: t)) =
      (.sign ' ' :: ·) <$> stripBytes? text (if a = '-' then .lineComment else .blockComment 0)
        (pos + 2) (encode t) := by
  simp only [opensComment, Bool.or_eq_true, Bool.and_eq_true, decide_eq_true_eq] at h
  rcases h with ⟨rfl, rfl⟩ | ⟨rfl, rfl⟩
  · rw [IsByte.encode_cons (by decide), IsByte.encode_cons (by decide), stripBytes?]
    · rfl
    · exact Region.noConfusion
    · exact fun _ => Region.noConfusion
  · rw [IsByte.encode_cons (by decide), IsByte.encode_cons (by decide), stripBytes?]
    · rfl
    · exact Region.noConfusion
    · exact fun _ => Region.noConfusion

/-- A character in a line comment. -/
theorem stripBytes?_lineComment_cons {c : Char} (hc : c ≠ '\n') (pos : Nat) (t : List Char) :
    stripBytes? text .lineComment pos (encode (c :: t)) =
      stripBytes? text .lineComment (pos + c.utf8Size) (encode t) := by
  have h : '\n'.toUInt8 ∉ utf8EncodeChar c := IsByte.notMem_utf8EncodeChar (by decide) hc.symm
  rw [encode_cons, stripBytes?_lineComment_append h, String.length_utf8EncodeChar]

/-- A character in a block comment that neither breaks a line nor begins a sign. -/
theorem stripBytes?_blockComment_cons {c : Char} {t : List Char}
    (ho : ∀ u, c = '/' → t = '*' :: u → False) (hc : ∀ u, c = '*' → t = '/' :: u → False)
    (hn : ¬(c = '\n' || c = '\r') = true) (depth pos : Nat) :
    stripBytes? text (.blockComment depth) pos (encode (c :: t)) =
      stripBytes? text (.blockComment depth) (pos + c.utf8Size) (encode t) := by
  have hpair {a b : Char} (hb : IsByte b) (hab : ∀ u, c = a → t = b :: u → False) (hca : c = a) :
      startsWith b (encode t) = false := by
    rw [← Bool.not_eq_true, startsWith_encode hb, List.head?_eq_some_iff]
    rintro ⟨u, hu⟩
    exact hab u hca hu
  by_cases h₁ : c = '/'
  · have hs := hpair (by decide) ho h₁
    subst h₁
    rw [IsByte.encode_cons (by decide), stripBytes?, hs]
    rfl
  by_cases h₂ : c = '*'
  · have hs := hpair (by decide) hc h₂
    subst h₂
    rw [IsByte.encode_cons (by decide), stripBytes?, hs]
    rfl
  rw [Bool.or_eq_true, decide_eq_true_eq, decide_eq_true_eq, not_or] at hn
  have hmem : ∀ a ∈ ['\n', '\r', '/', '*'], a.toUInt8 ∉ utf8EncodeChar c := by
    simp only [List.forall_mem_cons]
    refine ⟨?_, ?_, ?_, ?_, nofun⟩ <;> refine IsByte.notMem_utf8EncodeChar (by decide) (Ne.symm ?_)
    · exact hn.1
    · exact hn.2
    · exact h₁
    · exact h₂
  rw [encode_cons, stripBytes?_blockComment_append hmem, String.length_utf8EncodeChar]

/-- The scan of the bytes writes what stripping leaves, in each region. -/
theorem writes_stripFrom {pos : Nat} {t : List Char} (ht : StandsAt text pos t) {r : Region}
    (hr : NamesQuote r.quote?) : Writes text r pos (encode t) (stripFrom r t) := by
  fun_induction stripFrom r t generalizing pos with
  | case1 r => exact ⟨[], by rw [encode, List.flatMap_nil, stripBytes?], rfl, by simp⟩
  | case2 t ih => exact .sign (stripBytes?_code_opening (by decide) _ _) (ih ht.tail.tail hr)
  | case3 t ih => exact .sign (stripBytes?_code_opening (by decide) _ _) (ih ht.tail.tail hr)
  | case4 c t hd hs ih =>
    obtain ⟨b, bs, h⟩ := List.exists_cons_of_ne_nil (String.utf8EncodeChar_ne_nil (c := c))
    refine .copied ht (stripBytes?_copy ht (.inl ⟨rfl, opensComment_of_ne hd hs⟩) h) ?_
    rw [Region.behindByte_eq h]
    refine ih ht.tail ?_
    rw [Region.quote?_if_isQuote]
    exact hr.next c
  | case5 q c t ih =>
    obtain ⟨b, bs, h⟩ := List.exists_cons_of_ne_nil (String.utf8EncodeChar_ne_nil (c := c))
    refine .copied ht (stripBytes?_copy ht (.inr ⟨q, rfl⟩) h) ?_
    rw [Region.behindByte_quoted hr.isQuote h]
    refine ih ht.tail ?_
    rw [Region.quote?_if_eq]
    exact hr.next c
  | case6 t ih =>
    refine .sign ?_ (ih ht.tail hr)
    rw [IsByte.encode_cons (by decide), stripBytes?]
    rfl
  | case7 c t hc ih => exact .passed (stripBytes?_lineComment_cons hc _ _) (ih ht.tail hr)
  | case8 depth t ih =>
    refine .passed ?_ (ih ht.tail.tail hr)
    rw [IsByte.encode_cons (by decide), IsByte.encode_cons (by decide), stripBytes?]
    rfl
  | case9 depth t ih =>
    have := ih ht.tail.tail (by cases depth <;> exact hr)
    refine .passed ?_ this
    rw [IsByte.encode_cons (by decide), IsByte.encode_cons (by decide), stripBytes?]
    cases depth <;> rfl
  | case10 depth c t ho hc hn ih =>
    refine .sign ?_ (ih ht.tail hr)
    rw [Bool.or_eq_true, decide_eq_true_eq, decide_eq_true_eq] at hn
    rcases hn with rfl | rfl <;> rw [IsByte.encode_cons (by decide), stripBytes?] <;> rfl
  | case11 depth c t ho hc hn ih =>
    exact .passed (stripBytes?_blockComment_cons ho hc hn _ _) (ih ht.tail hr)

/-! ## Line feeds and length -/

/-- Stripping keeps the line feeds of a text, those of its comments as well. -/
theorem count_lineFeed_stripFrom (r : Region) (t : List Char) :
    (stripFrom r t).count '\n' = t.count '\n' := by
  fun_induction stripFrom r t with
  | case1 r => rfl
  | case2 t ih => simpa using ih
  | case3 t ih => simpa using ih
  | case4 c t hd hs ih => rw [List.count_cons, List.count_cons, ih]
  | case5 q c t ih => rw [List.count_cons, List.count_cons, ih]
  | case6 t ih => rw [List.count_cons, List.count_cons, ih]
  | case7 c t hc ih => rw [ih, List.count_cons_of_ne hc]
  | case8 depth t ih => simpa using ih
  | case9 depth t ih => simpa using ih
  | case10 depth c t ho hc hn ih => rw [List.count_cons, List.count_cons, ih]
  | case11 depth c t ho hc hn ih =>
    rw [Bool.or_eq_true, decide_eq_true_eq, decide_eq_true_eq, not_or] at hn
    rw [ih, List.count_cons_of_ne hn.1]

/-- Stripping does not make a text longer: the blank of a comment takes the place of its sign. -/
theorem utf8Len_stripFrom_le (r : Region) (t : List Char) :
    utf8Len (stripFrom r t) ≤ utf8Len t := by
  fun_induction stripFrom r t with
  | case1 r => exact Nat.le_refl _
  | case2 t ih =>
    have hblank : ' '.utf8Size ≤ '-'.utf8Size := by decide
    simp only [utf8Len_cons]
    omega
  | case3 t ih =>
    have hblank : ' '.utf8Size ≤ '/'.utf8Size := by decide
    simp only [utf8Len_cons]
    omega
  | case4 c t hd hs ih =>
    simp only [utf8Len_cons]
    omega
  | case5 q c t ih =>
    simp only [utf8Len_cons]
    omega
  | case6 t ih =>
    simp only [utf8Len_cons]
    omega
  | case7 c t hc ih =>
    simp only [utf8Len_cons]
    omega
  | case8 depth t ih =>
    simp only [utf8Len_cons]
    omega
  | case9 depth t ih =>
    simp only [utf8Len_cons]
    omega
  | case10 depth c t ho hc hn ih =>
    simp only [utf8Len_cons]
    omega
  | case11 depth c t ho hc hn ih =>
    simp only [utf8Len_cons]
    omega

theorem encode_toList (text : String) : encode text.toList = text.toUTF8.data.toList := by
  have h : text.toList.utf8Encode = text.toUTF8 := String.utf8Encode_toList
  rw [← h, List.utf8Encode, List.data_toByteArray]
  rfl

/-- Stripping the comments of a text keeps its line feeds, comments or not, and does not make it
longer; and a scan of its bytes strips them and copies each character from a place of the text. -/
theorem stripComments_bytewise (text : String) :
    (stripComments text).toList.count '\n' = text.toList.count '\n' ∧
      (stripComments text).utf8ByteSize ≤ text.utf8ByteSize ∧
      ∃ out, stripBytes? text .code 0 text.toUTF8.data.toList = some out ∧
        String.ofList (out.map Written.char) = stripComments text ∧
        ∀ pos c, .copied pos c ∈ out →
          String.Pos.Raw.IsValid text ⟨pos⟩ ∧ ∃ back, StandsAt text pos (c :: back) := by
  refine ⟨?_, ?_, ?_⟩
  · rw [stripComments, String.toList_ofList, count_lineFeed_stripFrom]
  · have h := utf8Len_stripFrom_le .code text.toList
    rwa [← String.utf8ByteSize_ofList, ← String.utf8ByteSize_ofList, String.ofList_toList] at h
  · obtain ⟨out, hout, ht, hc⟩ := writes_stripFrom (standsAt_zero text) (r := .code) namesQuote_none
    rw [encode_toList] at hout
    refine ⟨out, hout, by rw [ht, stripComments], fun pos c h => ?_⟩
    obtain ⟨back, hback⟩ := hc pos c h
    exact ⟨isValid_iff.2 ⟨_, hback⟩, back, hback⟩

end QueryStats.Query
