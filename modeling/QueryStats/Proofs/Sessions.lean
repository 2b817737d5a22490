import Mathlib.Data.List.Forall2
import QueryStats.Command.Run
import QueryStats.Proofs.Trimming

/-!
# Sessions line by line

A session shows for each line what a run with that line as its query shows (`run_interactive`); no
line has a say in what is shown for another one.  The input is cut into lines as bytes, before it is
known to be text: since no character but the line feed has the byte of a line feed in its UTF-8
form, the lines of bytes are those of the text (`lineBytes_encode`).
-/

namespace QueryStats.Command

open Text

/-! ## Lines of a text and lines of bytes -/

/-- Lines with some text in front of the first one. -/
def addFront {α : Type} (front : List α) : List (List α) → List (List α)
  | [] => [front]
  | line :: lines => (front ++ line) :: lines

/-- The lines of a text, without the line feeds that end them; the last one may have none. -/
def splitLines : List Char → List (List Char)
  | [] => []
  | c :: t => if c = '\n' then [] :: splitLines t else addFront [c] (splitLines t)

def inputLines (text : String) : List String := (splitLines text.toList).map String.ofList

/-- The UTF-8 form of a text. -/
def encode (t : List Char) : List UInt8 := t.flatMap String.utf8EncodeChar

theorem encode_append (s t : List Char) : encode (s ++ t) = encode s ++ encode t :=
  List.flatMap_append

theorem encode_singleton (c : Char) : encode [c] = String.utf8EncodeChar c :=
  List.flatMap_singleton ..

theorem decode?_encode (t : List Char) : decode? (encode t) = some (String.ofList t) := by
  have hbytes : (⟨(encode t).toArray⟩ : ByteArray) = (String.ofList t).toByteArray := by
    rw [String.toByteArray_ofList]
    exact ByteArray.ext List.data_toByteArray.symm
  rw [decode?, hbytes, String.fromUTF8?, dif_pos (String.ofList t).isValidUTF8]
  rfl

theorem eq_encode_of_decode? {bytes : List UInt8} {text : String}
    (h : decode? bytes = some text) : bytes = encode text.toList := by
  rw [decode?, String.fromUTF8?, Option.dite_none_right_eq_some] at h
  obtain ⟨hv, h⟩ := h
  have hbytes : text.toList.utf8Encode = ⟨bytes.toArray⟩ := by
    rw [String.utf8Encode_toList, ← Option.some.inj h]
    rfl
  have hdata := congrArg ByteArray.data hbytes
  rw [List.utf8Encode, List.data_toByteArray] at hdata
  exact (List.toArray_inj hdata).symm

/-- No other character has the byte of a line feed in its UTF-8 form. -/
theorem lineFeed_notMem_utf8EncodeChar {c : Char} (h : c ≠ '\n') :
    (10 : UInt8) ∉ String.utf8EncodeChar c := by
  have hc : c.val.toNat ≠ 10 := fun hn => h (Char.ext (UInt32.toNat_inj.1 hn))
  have hbyte {n : Nat} (hn : n % 256 ≠ 10) : (10 : UInt8) ≠ UInt8.ofNat n := by
    intro heq
    exact hn (by simpa using (congrArg UInt8.toNat heq).symm)
  fun_cases String.utf8EncodeChar c with
  | case1 v hv =>
    rw [List.mem_singleton]
    exact hbyte (by omega)
  | case2 v =>
    simp only [List.mem_cons, List.not_mem_nil, or_false, not_or]
    exact ⟨hbyte (by omega), hbyte (by omega)⟩
  | case3 v =>
    simp only [List.mem_cons, List.not_mem_nil, or_false, not_or]
    exact ⟨hbyte (by omega), hbyte (by omega), hbyte (by omega)⟩
  | case4 v =>
    simp only [List.mem_cons, List.not_mem_nil, or_false, not_or]
    exact ⟨hbyte (by omega), hbyte (by omega), hbyte (by omega), hbyte (by omega)⟩

theorem lineBytes_append {front : List UInt8} (hne : front ≠ []) (h : (10 : UInt8) ∉ front)
    (bytes : List UInt8) : lineBytes (front ++ bytes) = addFront front (lineBytes bytes) := by
  induction front with
  | nil => exact absurd rfl hne
  | cons b front ih =>
    rw [List.mem_cons, not_or] at h
    have hb : b ≠ 10 := Ne.symm h.1
    rw [List.cons_append, lineBytes, if_neg hb]
    by_cases hf : front = []
    · subst hf
      rw [List.nil_append]
      cases lineBytes bytes <;> rfl
    · rw [ih hf h.2]
      cases lineBytes bytes <;> rfl

/-- Some bytes are the UTF-8 form of a line, with or without the line feed that ends it. -/
def Encodes (bytes : List UInt8) (line : List Char) : Prop :=
  bytes = encode line ∨ bytes = encode (line ++ ['\n'])

theorem Encodes.append_front {bytes : List UInt8} {line : List Char} (h : Encodes bytes line)
    (c : Char) : Encodes (String.utf8EncodeChar c ++ bytes) ([c] ++ line) := by
  rw [← encode_singleton]
  rcases h with rfl | rfl
  · exact .inl (encode_append [c] line).symm
  · exact .inr (encode_append [c] (line ++ ['\n'])).symm

theorem lineBytes_encode (t : List Char) :
    List.Forall₂ Encodes (lineBytes (encode t)) (splitLines t) := by
  induction t with
  | nil => exact .nil
  | cons c t ih =>
    have hcons : encode (c :: t) = String.utf8EncodeChar c ++ encode t := List.flatMap_cons ..
    rw [hcons, splitLines]
    split
    · next hc =>
      subst hc
      exact .cons (.inr rfl) ih
    · next hc =>
      rw [lineBytes_append String.utf8EncodeChar_ne_nil (lineFeed_notMem_utf8EncodeChar hc)]
      generalize lineBytes (encode t) = bytes, splitLines t = lines at ih
      cases ih with
      | nil => exact .cons (.inl (encode_singleton c).symm) .nil
      | cons hline hlines => exact .cons (hline.append_front c) hlines

/-! ## What a line asks for -/

/-- Whether a mapping to upper case is that of `upperChar` as far as words of capital letters go:
where the two differ, neither gives capital letters only. -/
def IsUpperCase (upper : Char → List Char) : Prop :=
  ∀ c, upper c = upperChar c ∨
    (∃ d ∈ upper c, d.isUpper = false) ∧ ∃ d ∈ upperChar c, d.isUpper = false

/-- A text spells a word if the word is its upper case. -/
theorem IsUpperCase.spells_iff {upper : Char → List Char} (h : IsUpperCase upper) {word : String}
    (hword : ∀ d ∈ word.toList, d.isUpper = true) (t : List Char) :
    spells word t = true ↔ t.flatMap upper = word.toList := by
  have hagree {f : Char → List Char} (hf : t.flatMap f = word.toList) {c : Char} (hc : c ∈ t) :
      ¬∃ d ∈ f c, d.isUpper = false := by
    rintro ⟨d, hd, hu⟩
    have hupper := hword d (hf ▸ List.mem_flatMap.2 ⟨c, hc, hd⟩)
    rw [hu] at hupper
    cases hupper
  rw [spells, beq_iff_eq]
  constructor
  · intro ht
    rw [← ht]
    exact List.flatMap_congr fun c hc => (h c).resolve_right fun hr => hagree ht hc hr.2
  · intro ht
    rw [← ht]
    exact List.flatMap_congr fun c hc => ((h c).resolve_right fun hr => hagree ht hc hr.1).symm

/-- The upper case of a line without the white space around it. -/
def upperCase (upper : Char → List Char) (line : String) : String :=
  String.ofList ((trim line.toList).flatMap upper)

/-- Whether a line is a word, in letters of either case and with white space around it. -/
def isWord (word line : String) : Bool := spells word (trim line.toList)

def isBlankLine (line : String) : Bool := (trim line.toList).isEmpty

def endsSession (line : String) : Bool := isWord "EXIT" line || isWord "QUIT" line

/-- Whether nothing is shown for a line. -/
def isSilent (line : String) : Bool := isBlankLine line || endsSession line || isWord "HELP" line

section

variable {upper : Char → List Char} (h : IsUpperCase upper) (line : String)

include h

theorem IsUpperCase.isWord_iff {word : String} (hword : ∀ d ∈ word.toList, d.isUpper = true) :
    isWord word line = true ↔ upperCase upper line = word := by
  rw [isWord, h.spells_iff hword, upperCase, ← String.toList_inj, String.toList_ofList]

theorem IsUpperCase.endsSession_iff :
    endsSession line = true ↔ upperCase upper line = "EXIT" ∨ upperCase upper line = "QUIT" := by
  rw [endsSession, Bool.or_eq_true, h.isWord_iff line (by decide), h.isWord_iff line (by decide)]

theorem IsUpperCase.isSilent_iff :
    isSilent line = true ↔ isBlankLine line = true ∨ upperCase upper line = "EXIT" ∨
      upperCase upper line = "QUIT" ∨ upperCase upper line = "HELP" := by
  rw [isSilent, Bool.or_eq_true, Bool.or_eq_true, h.endsSession_iff,
    h.isWord_iff line (by decide), or_assoc, or_assoc]

end

/-- The arguments of a run that shows the clause of one query. -/
def oneShotArguments (json : Bool) (query : String) : List String :=
  ["--query", query] ++ if json then ["--json"] else []

/-- What is shown for a line of a session: what a run with the line as its query shows. -/
def shown (json : Bool) (environment : Option String) (columns : Option Nat) (line : String) :
    String :=
  if isSilent line then ""
  else (run (oneShotArguments json line) environment [] columns).output.out

/-- The lines of a session up to the one that ends it. -/
def heard (lines : List String) : List String :=
  lines.takeWhile (!endsSession ·) ++ (lines.dropWhile (!endsSession ·)).take 1

theorem run_oneShotArguments (json : Bool) (environment : Option String) (columns : Option Nat)
    (query : String) :
    run (oneShotArguments json query) environment [] columns =
      oneShot (wantsJson json environment) columns query := by
  cases json <;> rfl

theorem answer?_of_endsSession {line : String} (h : endsSession line = true) (json : Bool)
    (columns : Option Nat) : answer? json columns line = none := by
  have hne : trim line.toList ≠ [] := by
    intro hnil
    rw [endsSession, isWord, isWord, hnil] at h
    cases h
  have hspells : (spells "EXIT" (trim line.toList) || spells "QUIT" (trim line.toList)) = true := h
  rw [answer?, Request.ofLine, if_neg (by simpa using hne), if_pos hspells]

theorem exists_answer? {line : String} (h : endsSession line = false) (json : Bool)
    (environment : Option String) (columns : Option Nat) : ∃ a,
      answer? (wantsJson json environment) columns line = some a ∧
        a.out = shown json environment columns line := by
  have hspells : ¬(spells "EXIT" (trim line.toList) || spells "QUIT" (trim line.toList)) = true :=
    Bool.eq_false_iff.1 h
  rw [answer?, Request.ofLine, shown, isSilent, h, Bool.or_false, isBlankLine, isWord,
    if_neg hspells, run_oneShotArguments, oneShot, queryOf?]
  cases htrim : trim line.toList with
  | nil => exact ⟨_, rfl, rfl⟩
  | cons d u =>
    cases hhelp : spells "HELP" (d :: u) with
    | true => exact ⟨_, rfl, rfl⟩
    | false => exact ⟨_, rfl, rfl⟩

/-! ## The run of a session -/

/-- The line feed that ends a line does not count. -/
theorem trim_append_lineFeed (t : List Char) : trim (t ++ ['\n']) = trim t := by
  obtain ⟨a, b, ht, ha, hb⟩ := exists_append_trim t
  have hend : ∀ c ∈ b ++ ['\n'], isBlank c = true := by
    intro c hc
    rcases List.mem_append.1 hc with hc | hc
    · exact hb c hc
    · rw [List.mem_singleton.1 hc]
      decide
  conv_lhs => rw [ht, List.append_assoc, List.append_assoc]
  exact trim_append_of_ends ha hend (head_trim t) (last_trim t)

theorem answer?_append_lineFeed (json : Bool) (columns : Option Nat) (t : List Char) :
    answer? json columns (String.ofList (t ++ ['\n'])) =
      answer? json columns (String.ofList t) := by
  rw [answer?, answer?, Request.ofLine, Request.ofLine, String.toList_ofList, String.toList_ofList,
    trim_append_lineFeed]

/-- A session only depends on what its lines are without their line feeds. -/
theorem dialogue_of_encodes (json : Bool) (columns : Option Nat) {bytes : List (List UInt8)}
    {lines : List (List Char)} (h : List.Forall₂ Encodes bytes lines) :
    dialogue json columns (bytes.map decode?) =
      dialogue json columns ((lines.map String.ofList).map some) := by
  induction h with
  | nil => rfl
  | @cons bytes line _ _ hline _ ih =>
    obtain ⟨text, htext, hanswer⟩ : ∃ text, decode? bytes = some text ∧
        answer? json columns text = answer? json columns (String.ofList line) := by
      rcases hline with rfl | rfl
      · exact ⟨_, decode?_encode line, rfl⟩
      · exact ⟨_, decode?_encode _, answer?_append_lineFeed json columns line⟩
    rw [List.map_cons, List.map_cons, List.map_cons, htext, dialogue, dialogue, hanswer, ih]

theorem heard_cons (line : String) (lines : List String) :
    heard (line :: lines) = line :: if endsSession line then [] else heard lines := by
  cases h : endsSession line <;> simp [heard, h]

/-- What a session writes after its banner. -/
theorem out_dialogue (json : Bool) (environment : Option String) (columns : Option Nat)
    (lines : List String) :
    (dialogue (wantsJson json environment) columns (lines.map some)).out =
      String.join ((heard lines).map fun line => prompt ++ shown json environment columns line) ++
        if lines.any endsSession then "" else prompt := by
  induction lines with
  | nil => rfl
  | cons line lines ih =>
    rw [heard_cons, List.map_cons, List.map_cons, String.join_cons, List.any_cons, dialogue]
    cases h : endsSession line with
    | true =>
      have hshown : shown json environment columns line = "" := by
        rw [shown, isSilent, h, Bool.or_true, Bool.true_or, if_pos rfl]
      rw [answer?_of_endsSession h, hshown]
      rfl
    | false =>
      obtain ⟨a, ha, hshown⟩ := exists_answer? h json environment columns
      have hout (d : Output) : (({ out := prompt } : Output) ++ a ++ d).out =
          prompt ++ a.out ++ d.out := rfl
      rw [ha]
      simp only
      rw [hout, ih, hshown, Bool.false_or, if_neg Bool.false_ne_true]
      simp only [String.append_assoc]

/-- A session shows for each line up to the one that ends it what a run with that line as its query
shows.  A line ends the session, or has nothing shown for it, by its upper case. -/
theorem run_interactive {arguments : List String} {environment : Option String}
    {stdin : List UInt8} {columns : Option Nat} {input : String} {o : Options}
    (ho : readArguments {} arguments = .run o) (hi : o.interactive = true)
    (hinput : decode? stdin = some input) :
    (run arguments environment stdin columns).exitCode = 0 ∧
      (run arguments environment stdin columns).output.out =
        banner ++
          (String.join ((heard (inputLines input)).map fun line =>
            prompt ++ shown o.json environment columns line) ++
          if (inputLines input).any endsSession then "" else prompt) ∧
      ∀ upper, IsUpperCase upper → ∀ line,
        (endsSession line = true ↔
          upperCase upper line = "EXIT" ∨ upperCase upper line = "QUIT") ∧
        (isSilent line = true ↔ isBlankLine line = true ∨ upperCase upper line = "EXIT" ∨
          upperCase upper line = "QUIT" ∨ upperCase upper line = "HELP") := by
  have hrun : run arguments environment stdin columns =
      ⟨0, session (wantsJson o.json environment) columns ((lineBytes stdin).map decode?)⟩ := by
    rw [run, ho]
    exact if_pos hi
  rw [hrun, eq_encode_of_decode? hinput]
  refine ⟨rfl, ?_, fun upper h line => ⟨h.endsSession_iff line, h.isSilent_iff line⟩⟩
  rw [session, dialogue_of_encodes _ columns (lineBytes_encode input.toList)]
  exact congrArg (banner ++ ·) (out_dialogue o.json environment columns _)

/-- A line after the one that ends the session is not read. -/
theorem run_interactive_quit :
    (run ["--repl"] none (encode "count(x)\n quit\ncount(y)".toList) (some 100)).output.out =
      banner ++ (prompt ++ showQuery false (some 100) "count(x)" ++ prompt) := by
  have hlines : inputLines (String.ofList "count(x)\n quit\ncount(y)".toList) =
      ["count(x)", " quit", "count(y)"] := by decide +kernel
  have hfirst : shown false none (some 100) "count(x)" =
      showQuery false (some 100) "count(x)" := by
    have hsilent : isSilent "count(x)" = false := by decide +kernel
    have htrim : Text.trim "count(x)".toList = "count(x)".toList := by decide +kernel
    rw [shown, hsilent, run_oneShotArguments, oneShot, queryOf?, htrim]
    rfl
  obtain ⟨-, hout, hwords⟩ :=
    @run_interactive ["--repl"] none _ (some 100) _ _ rfl rfl (decode?_encode _)
  obtain ⟨hends, hsilent⟩ := hwords upperChar (fun _ => .inl rfl) " quit"
  have hquit : upperCase upperChar " quit" = "QUIT" := by decide +kernel
  have hlast : shown false none (some 100) " quit" = "" :=
    if_pos (hsilent.2 (.inr (.inr (.inl hquit))))
  have hcount : endsSession "count(x)" = false := by decide +kernel
  rw [hout, hlines]
  simp [heard, hcount, hends.2 (.inr hquit), hfirst, hlast]

end QueryStats.Command
