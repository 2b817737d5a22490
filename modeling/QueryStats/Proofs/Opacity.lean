import QueryStats.Proofs.Forms

/-!
# Quoted text does not drive the reading

The recognisers look at the faces of the cells only.  So each of them commutes with a map on cells
that keeps the faces (`KeepsFaces`), and so does the reading of a whole text (`piecesFrom_map`).
What a clause takes from the sources outside quoted runs shows on the faces too: the name of a
function, the amount and the unit of a time bucket, and an argument up to the bodies of its quoted
runs.
-/

namespace QueryStats.Query

open Text

/-- Whether a map on cells keeps what each cell shows. -/
def KeepsFaces (f : Cell → Cell) : Prop := ∀ x, (f x).face = x.face

def Call.map (f : Cell → Cell) (c : Call) : Call :=
  ⟨c.name.map f, c.argument.map f, c.label.map (List.map f)⟩

def Bucketing.map (f : Cell → Cell) (b : Bucketing) : Bucketing :=
  ⟨b.field.map f, b.amount.map f, b.unit.map f, b.label.map (List.map f)⟩

def Piece.map (f : Cell → Cell) : Piece → Piece
  | other x => other (f x)
  | call text c requested => call (text.map f) (c.map f) requested
  | keyword text opens => keyword (text.map f) opens
  | gap text => gap (text.map f)
  | field text => field (text.map f)
  | callee text => callee (text.map f)
  | bucketing text b => bucketing (text.map f) (b.map f)

section

variable {f : Cell → Cell} (hf : KeepsFaces f)
include hf

/-! ## Tokens -/

theorem faces_map (t : List Cell) : faces (t.map f) = faces t := by
  rw [faces, List.map_map]
  exact List.map_congr_left fun x _ => hf x

theorem takeWhile_map_face (p : Char → Bool) (t : List Cell) :
    (t.map f).takeWhile (p ·.face) = (t.takeWhile (p ·.face)).map f := by
  have hp : (fun x : Cell => p x.face) ∘ f = fun x => p x.face := funext fun x => by simp [hf x]
  rw [List.takeWhile_map, hp]

theorem dropWhile_map_face (p : Char → Bool) (t : List Cell) :
    (t.map f).dropWhile (p ·.face) = (t.dropWhile (p ·.face)).map f := by
  have hp : (fun x : Cell => p x.face) ∘ f = fun x => p x.face := funext fun x => by simp [hf x]
  rw [List.dropWhile_map, hp]

theorem skipBlanks_map (t : List Cell) : skipBlanks (t.map f) = (skipBlanks t).map f :=
  dropWhile_map_face hf isBlank t

theorem skipSomeBlanks?_map (t : List Cell) :
    skipSomeBlanks? (t.map f) = (skipSomeBlanks? t).map (List.map f) := by
  cases t with
  | nil => rfl
  | cons x t =>
    rw [List.map_cons, skipSomeBlanks?, skipSomeBlanks?, skipBlanks_map hf, Cell.isBlank, hf x]
    split <;> simp_all [Cell.isBlank]

theorem skipChar?_map (c : Char) (t : List Cell) :
    skipChar? c (t.map f) = (skipChar? c t).map (List.map f) := by
  cases t with
  | nil => rfl
  | cons x t =>
    rw [List.map_cons, skipChar?, skipChar?, hf x]
    split <;> rfl

theorem skipKeyword?_map (keyword : String) (t : List Cell) :
    skipKeyword? keyword (t.map f) = (skipKeyword? keyword t).map (List.map f) := by
  have hletter : (fun x : Cell => fold x.face) ∘ f = fun x => fold x.face :=
    funext fun x => by simp [hf x]
  rw [skipKeyword?, skipKeyword?, dropKeyword?_map, hletter]

theorem run?_map (p : Char → Bool) (t : List Cell) :
    run? p (t.map f) = (run? p t).map (Prod.map (List.map f) (List.map f)) := by
  rw [run?, run?, takeWhile_map_face hf, dropWhile_map_face hf]
  cases t.takeWhile fun x => p x.face <;> rfl

theorem quoted?_map (q : Char) (t : List Cell) :
    quoted? q (t.map f) = (quoted? q t).map (Prod.map (List.map f) (List.map f)) := by
  cases t with
  | nil => rfl
  | cons x t =>
    rw [List.map_cons, quoted?, quoted?, hf x, takeWhile_map_face hf (· != q),
      dropWhile_map_face hf (· != q)]
    split
    · cases t.dropWhile fun x => x.face != q <;> simp
    · rfl

theorem name?_map (p : Char → Bool) (t : List Cell) :
    name? p (t.map f) = (name? p t).map (Prod.map (List.map f) (List.map f)) := by
  rw [name?, name?, quoted?_map hf, quoted?_map hf, run?_map hf, Option.map_or, Option.map_or]

theorem alias?_map (t : List Cell) :
    alias? (t.map f) = (alias? t).map (Prod.map (List.map f) (List.map f)) := by
  simp only [alias?, Option.bind_eq_bind, skipSomeBlanks?_map hf, Option.bind_map, Option.map_bind,
    Function.comp_def, skipKeyword?_map hf, name?_map hf]

theorem optionalAlias_map (t : List Cell) :
    optionalAlias (t.map f) =
      ((optionalAlias t).1.map (List.map f), (optionalAlias t).2.map f) := by
  rw [optionalAlias, optionalAlias, alias?_map hf]
  rcases alias? t with _ | ⟨name, rest⟩ <;> rfl

/-! ## Calls and time buckets -/

theorem call?_map (t : List Cell) :
    call? (t.map f) = (call? t).map (Prod.map (Call.map f) (List.map f)) := by
  have hstart (name : List Cell) : (name.map f).head?.any (isNameStart ·.face) =
      name.head?.any (isNameStart ·.face) := by
    cases name with
    | nil => rfl
    | cons x name => simp [hf x]
  simp only [call?, Option.bind_eq_bind, run?_map hf, Option.bind_map, Option.map_bind,
    Function.comp_def, Prod.map_fst, Prod.map_snd, hstart]
  congr 1
  funext r
  split
  · rfl
  · simp only [skipChar?_map hf, Option.bind_map, Option.map_bind, Function.comp_def,
      takeWhile_map_face hf (fun c => !isParenthesis c),
      dropWhile_map_face hf (fun c => !isParenthesis c), optionalAlias_map hf]
    rfl

theorem fraction_map (t : List Cell) :
    fraction (t.map f) = ((fraction t).1.map f, (fraction t).2.map f) := by
  have hbind : (skipChar? '.' (t.map f)).bind (run? Char.isDigit) =
      ((skipChar? '.' t).bind (run? Char.isDigit)).map (Prod.map (List.map f) (List.map f)) := by
    simp only [skipChar?_map hf, Option.bind_map, Option.map_bind, Function.comp_def, run?_map hf]
  cases t with
  | nil => rfl
  | cons x t =>
    rw [List.map_cons] at hbind ⊢
    simp only [fraction, hbind]
    cases (skipChar? '.' (x :: t)).bind (run? Char.isDigit) <;> rfl

theorem amount?_map (t : List Cell) :
    amount? (t.map f) = (amount? t).map (Prod.map (List.map f) (List.map f)) := by
  simp only [amount?, Option.bind_eq_bind, run?_map hf, Option.bind_map, Option.map_bind,
    Function.comp_def, Prod.map_fst, Prod.map_snd, fraction_map hf]
  simp

theorem bucketing?_map (t : List Cell) :
    bucketing? (t.map f) = (bucketing? t).map (Prod.map (Bucketing.map f) (List.map f)) := by
  simp only [bucketing?, field?, Option.bind_eq_bind, skipKeyword?_map hf, Option.bind_map,
    Option.map_bind, Function.comp_def, skipBlanks_map hf, skipChar?_map hf, name?_map hf,
    Prod.map_fst, Prod.map_snd, amount?_map hf, run?_map hf, optionalAlias_map hf]
  rfl

/-! ## What stands around a call -/

theorem endsItem_map (rest : List Cell) : endsItem (rest.map f) = endsItem rest := by
  rw [Bool.eq_iff_iff, endsItem_eq_true_iff, endsItem_eq_true_iff, EndsRequest, faces_map hf]
  rfl

theorem isRequested_map (before : List Char) (rest : List Cell) :
    isRequested before (rest.map f) = isRequested before rest := by
  rw [isRequested, endsItem_map hf, isRequested]

/-! ## Grouping keywords and lists -/

theorem skipBy?_map (t : List Cell) : skipBy? (t.map f) = (skipBy? t).map (List.map f) := by
  have hends (rest : List Cell) : endsWord (rest.map f) = endsWord rest := by
    cases rest with
    | nil => rfl
    | cons x rest => rw [List.map_cons, endsWord, endsWord, hf x]
  simp only [skipBy?, Option.bind_eq_bind, skipKeyword?_map hf, Option.bind_map, Option.map_bind,
    Function.comp_def, hends]
  congr 1
  funext rest
  split <;> rfl

theorem groupingKeyword?_map (before : List Char) (t : List Cell) :
    groupingKeyword? before (t.map f) =
      (groupingKeyword? before t).map (Prod.map id (List.map f)) := by
  have hgroup : skipGroupBy? (t.map f) = (skipGroupBy? t).map (List.map f) := by
    simp only [skipGroupBy?, Option.bind_eq_bind, skipKeyword?_map hf, Option.bind_map,
      Option.map_bind, Function.comp_def, skipSomeBlanks?_map hf, skipBy?_map hf]
  simp only [groupingKeyword?, hgroup, skipBy?_map hf, Option.map_map, Option.map_or]
  rfl

omit hf in
theorem upTo_map (t rest : List Cell) : upTo (t.map f) (rest.map f) = (upTo t rest).map f := by
  rw [upTo, upTo, List.length_map, List.length_map, List.map_take]

theorem item?_map (t : List Cell) :
    item? (t.map f) = (item? t).map (Prod.map (Piece.map f) (List.map f)) := by
  have hopens (rest : List Cell) : opensParenthesis (rest.map f) = opensParenthesis rest := by
    rw [opensParenthesis, skipBlanks_map hf, skipChar?_map hf, Option.isSome_map, opensParenthesis]
  rw [item?, item?, bucketing?_map hf, field?, field?, name?_map hf]
  rcases bucketing? t with _ | ⟨b, rest⟩
  · rcases name? isFieldChar t with _ | ⟨name, rest⟩
    · rfl
    · simp only [Option.map_none, Option.map_some, Prod.map_apply, hopens]
      cases opensParenthesis rest <;> rfl
  · simp only [Option.map_some, Prod.map_apply, upTo_map]
    rfl

theorem takeWhile_isGap_map (t : List Cell) :
    (t.map f).takeWhile Cell.isGap = (t.takeWhile Cell.isGap).map f :=
  takeWhile_map_face hf (fun c => isBlank c || c = ',') t

theorem dropWhile_isGap_map (t : List Cell) :
    (t.map f).dropWhile Cell.isGap = (t.dropWhile Cell.isGap).map f :=
  dropWhile_map_face hf (fun c => isBlank c || c = ',') t

theorem commaFollows_map (t : List Cell) : commaFollows (t.map f) = commaFollows t := by
  have hcomma : (fun x : Cell => decide (x.face = ',')) ∘ f = fun x => decide (x.face = ',') :=
    funext fun x => by simp [hf x]
  rw [commaFollows, takeWhile_isGap_map hf, List.any_map, hcomma, commaFollows]

/-- A list is read into the same items, whatever stands behind the faces. -/
theorem listPieces_map (t : List Cell) :
    listPieces (t.map f) =
      ((listPieces t).1.map (Piece.map f), (listPieces t).2.map f) := by
  have hi := item?_map hf (t.dropWhile Cell.isGap)
  rw [← dropWhile_isGap_map hf] at hi
  fun_induction listPieces t with
  | case1 t gap h =>
    rw [h] at hi
    rw [listPieces_of_none hi, takeWhile_isGap_map hf, dropWhile_isGap_map hf]
    rfl
  | case2 t gap item rest h hc ih =>
    rw [h] at hi
    rw [listPieces_of_some hi, if_pos ((commaFollows_map hf rest).trans hc), takeWhile_isGap_map hf,
      ih (by rw [dropWhile_isGap_map hf, item?_map hf])]
    rfl
  | case3 t gap item rest h hc =>
    rw [h] at hi
    rw [listPieces_of_some hi, if_neg (by rwa [commaFollows_map hf rest]), takeWhile_isGap_map hf]
    rfl

/-! ## The whole text -/

omit hf in
theorem texts_map (ps : List Piece) : texts (ps.map (Piece.map f)) = (texts ps).map f := by
  have htext (p : Piece) : (p.map f).text = p.text.map f := by cases p <;> rfl
  induction ps with
  | nil => rfl
  | cons p ps ih => rw [List.map_cons, texts_cons, texts_cons, List.map_append, htext, ih]

theorem read?_map (seen : List Char) (t : List Cell) :
    read? seen (t.map f) =
      (read? seen t).map (Prod.map (List.map (Piece.map f)) (List.map f)) := by
  rw [read?, read?, call?_map hf, groupingKeyword?_map hf]
  split
  · rfl
  rcases call? t with _ | ⟨c, rest⟩
  · rcases groupingKeyword? seen t with _ | ⟨opens, rest⟩
    · rfl
    · cases opens <;> simp [upTo_map, listPieces_map hf, Piece.map]
  · simp [upTo_map, isRequested_map hf, Piece.map]

/-- A text is read into the same pieces, whatever stands behind the faces. -/
theorem piecesFrom_map (seen : List Char) (t : List Cell) :
    piecesFrom seen (t.map f) = (piecesFrom seen t).map (Piece.map f) := by
  fun_induction piecesFrom seen t with
  | case1 => rw [List.map_nil, piecesFrom]; rfl
  | case2 seen x t ps rest h ih =>
    have hr := read?_map hf seen (x :: t)
    rw [h] at hr
    rw [piecesFrom_of_read? hr, texts_map, faces_map hf, ih, List.map_append]
  | case3 seen x t h ih =>
    have hr := read?_map hf seen (x :: t)
    rw [h] at hr
    rw [List.map_cons, piecesFrom_of_none hr, hf x, ih]
    rfl

end

/-! ## What shows of a clause -/

/-- A cell that shows the same and stands for what it shows. -/
def Cell.surface (x : Cell) : Cell := .plain x.face

theorem keepsFaces_surface : KeepsFaces Cell.surface := fun _ => rfl

theorem map_surface (t : List Cell) : t.map Cell.surface = shown (faces t) := by
  rw [shown, faces, List.map_map]
  rfl

/-- In a closed text the last character shows as itself. -/
theorem getLast?_faces_mask {t : List Char} (h : Balanced t) :
    (faces (mask t)).getLast? = t.getLast? := by
  rcases List.eq_nil_or_concat t with rfl | ⟨t, c, rfl⟩
  · rfl
  have hlast : maskFrom (quoteAfter none t) [c] = [.plain c] := by
    rw [Balanced, List.concat_eq_append, quoteAfter_append, quoteAfter_cons, quoteAfter_nil] at h
    rcases hq : quoteAfter none t with _ | q
    · rfl
    · rw [hq, nextQuote] at h
      split at h
      · next hc => rw [hc, maskFrom_self_cons]; rfl
      · cases h
  rw [List.concat_eq_append, mask, maskFrom_append, hlast, faces_append, faces_cons, faces_nil,
    List.getLast?_concat, List.getLast?_concat, face_plain]

/-- Trimming takes the same white space from a text and from its faces. -/
theorem faces_mask_trim {t : List Char} (h : Balanced (trim t)) :
    faces (mask (trim t)) = trim (faces (mask t)) := by
  obtain ⟨a, b, ht, ha, hb⟩ := exists_append_trim t
  have hfaces : faces (mask t) = a ++ (faces (mask (trim t)) ++ b) := by
    conv_lhs => rw [ht]
    rw [mask_unquoted_append fun c hc => isQuote_of_isBlank (ha c hc), mask_append h,
      mask_of_unquoted fun c hc => isQuote_of_isBlank (hb c hc), faces_append, faces_append,
      faces_shown, faces_shown]
  rw [hfaces]
  symm
  apply trim_append_of_ends ha hb
  · rw [head?_faces_mask]
    exact head_trim t
  · rw [getLast?_faces_mask h]
    exact last_trim t

end QueryStats.Query

namespace QueryStats

/-- What of an aggregation does not depend on quoted text: the name of the function, and the
argument with its quoted text blanked out. -/
def Aggregation.outline (a : Aggregation) : String × String :=
  (a.name, Query.blankQuoted a.argument)

/-- What of a time bucket does not depend on quoted text: the amount and the unit. -/
def Bucket.outline (b : Bucket) : String × String := (b.amount, b.unit)

/-- What of a clause does not depend on quoted text. -/
def Clause.outline (c : Clause) : List (String × String) × Option (String × String) :=
  (c.aggregations.map Aggregation.outline, c.grouping.bucket.map Bucket.outline)

open Query

/-- The outline of what a call asks for is read from the faces of the call. -/
theorem outline_aggregation {s : List Char} (hs : CommentFree s) {t rest : List Cell}
    {c : Call} (ht : t <:+ mask s) (h : call? t = some (c, rest)) :
    c.aggregation.outline =
      (String.ofList (faces c.name), String.ofList (Text.trim (faces c.argument))) := by
  obtain ⟨⟨name, hname, -⟩, ⟨v, hv, harg⟩, -⟩ := call?_captures hs ht h
  have hn : sourceText c.name = String.ofList (faces c.name) := by
    rw [sourceText, hname, sources_shown, faces_shown]
  have ha : blankQuoted (String.ofList (Text.trim (sources c.argument))) =
      String.ofList (Text.trim (faces c.argument)) := by
    rw [blankQuoted, String.toList_ofList, hv, sources_mask, faces_mask_trim harg.trim.balanced]
  exact congrArg₂ Prod.mk hn ha

/-- The outline of what a time bucket asks for is read from its faces. -/
theorem outline_bucket {s : List Char} {t rest : List Cell} {b : Bucketing} (ht : t <:+ mask s)
    (h : bucketing? t = some (b, rest)) :
    b.bucket.outline = (String.ofList (faces b.amount), String.ofList (faces b.unit)) := by
  obtain ⟨⟨amount, hamount, -⟩, ⟨unit, hunit, -⟩, -⟩ := bucketing?_captures ht h
  unfold Bucketing.bucket Bucket.outline
  rw [sourceText, sourceText, hamount, hunit, sources_shown, faces_shown, sources_shown,
    faces_shown]

theorem filterMap_requested?_map (f : Cell → Cell) (ps : List Piece) :
    (ps.map (Piece.map f)).filterMap Piece.requested? =
      (ps.filterMap Piece.requested?).map (Call.map f) := by
  have hpiece : Piece.requested? ∘ Piece.map f = fun p => p.requested?.map (Call.map f) := by
    funext p
    rcases p with _ | ⟨_, _, _ | _⟩ | _ | _ | _ | _ | _ <;> rfl
  rw [List.filterMap_map, hpiece, List.map_filterMap]

theorem filterMap_bucketing?_map (f : Cell → Cell) (ps : List Piece) :
    (ps.map (Piece.map f)).filterMap Piece.bucketing? =
      (ps.filterMap Piece.bucketing?).map (Bucketing.map f) := by
  have hpiece : Piece.bucketing? ∘ Piece.map f = fun p => p.bucketing?.map (Bucketing.map f) := by
    funext p
    cases p <;> rfl
  rw [List.filterMap_map, hpiece, List.map_filterMap]

/-- The outline of a text without comments is read from the faces of the text. -/
theorem outline_ofChars {s : List Char} (hs : CommentFree s) :
    (Clause.ofChars s).outline =
      (((pieces (shown (faces (mask s)))).filterMap Piece.requested?).map (fun c =>
          (String.ofList (sources c.name), String.ofList (Text.trim (sources c.argument)))),
        ((pieces (shown (faces (mask s)))).filterMap Piece.bucketing?).getLast?.map (fun b =>
          (String.ofList (sources b.amount), String.ofList (sources b.unit)))) := by
  have hfound := foundIn_piecesFrom [] (mask s)
  have hmap : pieces (shown (faces (mask s))) = (pieces (mask s)).map (Piece.map Cell.surface) := by
    rw [← map_surface, pieces, piecesFrom_map keepsFaces_surface]
    rfl
  have hsources (t : List Cell) : sources (t.map Cell.surface) = faces t := by
    rw [map_surface, sources_shown]
  rw [hmap, filterMap_requested?_map, filterMap_bucketing?_map, List.getLast?_map]
  apply Prod.ext
  · simp only [Clause.outline, Clause.ofChars, Clause.ofPieces, List.map_map]
    refine List.map_congr_left fun c hc => ?_
    obtain ⟨u, rest, hu, hcall⟩ := call?_of_mem_requested hfound hc
    simp only [Function.comp_apply, Call.map, hsources]
    exact outline_aggregation hs hu hcall
  · simp only [Clause.outline, Clause.ofChars, Clause.ofPieces, Option.map_map]
    refine Option.map_congr fun b hb => ?_
    obtain ⟨u, rest, hu, hbucket⟩ := bucketing?_of_mem hfound (List.mem_of_getLast? hb)
    simp only [Function.comp_apply, Bucketing.map, hsources]
    exact outline_bucket hu hbucket

/-- Two queries that look the same once their comments are stripped and their quoted text is
blanked out have clauses of one outline. -/
theorem ofQuery_outline {q₁ q₂ : String}
    (h : blankQuoted (stripComments q₁) = blankQuoted (stripComments q₂)) :
    (Clause.ofQuery q₁).outline = (Clause.ofQuery q₂).outline := by
  have hfaces : faces (mask (stripFrom .code q₁.toList)) =
      faces (mask (stripFrom .code q₂.toList)) := by
    unfold blankQuoted stripComments at h
    rwa [String.ofList_inj, String.toList_ofList, String.toList_ofList] at h
  calc (Clause.ofQuery q₁).outline
      = _ := outline_ofChars (commentFree_stripFrom q₁.toList)
    _ = _ := by rw [hfaces]
    _ = (Clause.ofQuery q₂).outline := (outline_ofChars (commentFree_stripFrom q₂.toList)).symm

/-- Keywords, signs and parentheses in quotes, and a whole query in a comment, change nothing. -/
theorem ofQuery_outline_quoted :
    (Clause.ofQuery
        "SELECT count('é, by') /* a */ FROM t GROUP BY SPAN(`ts`, 5m), `x`").outline =
      (Clause.ofQuery
        "SELECT count('10) by') /* | stats max(y) by z */ FROM t GROUP BY SPAN(`at`, 5m), `y`"
        ).outline := by
  apply ofQuery_outline
  unfold blankQuoted stripComments
  simp only [String.toList_ofList, String.reduceToList]
  exact congrArg String.ofList (by decide +kernel)

end QueryStats
