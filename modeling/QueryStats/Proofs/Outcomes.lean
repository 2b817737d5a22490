import QueryStats.Proofs.Arguments
import QueryStats.Proofs.Sessions

/-!
# What a run leaves behind

A run ends in one of six ways (`Ends`).  Which one it is, is decided by the items of its arguments
(`run_items`), and for the run of one query also by the text that the query is read from.  The exit
status tells what went wrong; where it is not 0, there is nothing on the standard output
(`run_exitCode`).
-/

namespace QueryStats.Command

open Text

/-- The items ask for the run of one query. -/
structure IsOneShot (l : List Item) : Prop where
  not_faultFirst : ¬FaultFirst l
  not_helpFirst : ¬HelpFirst l
  not_interactive : .interactive ∉ l

theorem IsOneShot.passes {l : List Item} (h : IsOneShot l) : Passes l :=
  passes_iff.2 ⟨h.not_faultFirst, h.not_helpFirst⟩

theorem IsOneShot.interactive_ne {l : List Item} (h : IsOneShot l) :
    ¬(summary l).interactive = true :=
  fun hi => h.not_interactive (decide_eq_true_iff.1 hi)

/-- A text that a query is read from: what the items give, or else the standard input. -/
def Reads (l : List Item) (stdin : List UInt8) (text : String) : Prop :=
  queryText? l = some text ∨ queryText? l = none ∧ stdin = encode text.toList

/-- A text without the white space around it. -/
def trimmed (text : String) : String := String.ofList (trim text.toList)

/-- Whether a run shows clauses as JSON. -/
def showsJson (l : List Item) (environment : Option String) : Bool :=
  wantsJson (decide (.json ∈ l)) environment

theorem showsJson_iff {l : List Item} {environment : Option String} :
    showsJson l environment = true ↔ .json ∈ l ∨
      ∃ value, environment = some value ∧ value.toList.map Char.toLower = "json".toList := by
  have hlower : "json".toList.map Char.toLower = "json".toList := by decide
  unfold showsJson wantsJson eqIgnoreCase
  rw [Bool.or_eq_true, decide_eq_true_iff, Option.any_eq_true, hlower]
  simp only [beq_iff_eq]

theorem encode_injective {s t : String} (h : encode s.toList = encode t.toList) : s = t := by
  have hdecode := decode?_encode s.toList
  rw [h, decode?_encode, String.ofList_toList, String.ofList_toList] at hdecode
  exact (Option.some.inj hdecode).symm

theorem decode?_eq_none_iff {bytes : List UInt8} :
    decode? bytes = none ↔ ∀ text : String, bytes ≠ encode text.toList := by
  constructor
  · rintro h text rfl
    rw [decode?_encode] at h
    cases h
  · intro h
    cases hd : decode? bytes with
    | none => rfl
    | some text => exact absurd (eq_encode_of_decode? hd) (h text)

section

variable {l : List Item} {stdin : List UInt8} {s t : String}

theorem Reads.unique (hs : Reads l stdin s) (ht : Reads l stdin t) : s = t := by
  rcases hs with hs | ⟨hs, rfl⟩ <;> rcases ht with ht | ⟨ht, heq⟩
  · exact Option.some.inj (hs.symm.trans ht)
  · rw [hs] at ht
    cases ht
  · rw [hs] at ht
    cases ht
  · exact encode_injective heq

/-- A query is read from some text, unless it is to be read from the standard input and that is no
text. -/
theorem exists_reads_iff : (∃ text, Reads l stdin text) ↔
    ¬(queryText? l = none ∧ ∀ text : String, stdin ≠ encode text.toList) := by
  unfold Reads
  cases queryText? l with
  | none => simp
  | some text => simp

end

/-! ## The ways a run ends -/

/-- What a run ends with. -/
inductive Ends (args : List String) (environment : Option String) (stdin : List UInt8)
    (columns : Option Nat) : Outcome → Prop
  | faulty (h : FaultFirst (items args)) (e : ArgumentError) :
    Ends args environment stdin columns (rejected e)
  | help (h : HelpFirst (items args)) : Ends args environment stdin columns ⟨0, { err := usage }⟩
  | interactive (hfault : ¬FaultFirst (items args)) (hhelp : ¬HelpFirst (items args))
      (h : .interactive ∈ items args) :
    Ends args environment stdin columns
      ⟨0, session (showsJson (items args) environment) columns ((lineBytes stdin).map decode?)⟩
  | unreadable (h : IsOneShot (items args)) (hquery : queryText? (items args) = none)
      (hstdin : ∀ text : String, stdin ≠ encode text.toList) :
    Ends args environment stdin columns ⟨74, { err := complaint .invalidText }⟩
  | blank (h : IsOneShot (items args)) {text : String} (hreads : Reads (items args) stdin text)
      (hblank : ∀ c ∈ text.toList, isBlank c = true) :
    Ends args environment stdin columns ⟨2, { err := usage ++ complaint .emptyQuery }⟩
  | shown (h : IsOneShot (items args)) {text : String} (hreads : Reads (items args) stdin text)
      (hblank : ¬∀ c ∈ text.toList, isBlank c = true) :
    Ends args environment stdin columns
      ⟨0, { out := showQuery (showsJson (items args) environment) columns (trimmed text) }⟩

theorem oneShot_of_blank {text : String} (h : ∀ c ∈ text.toList, isBlank c = true) (json : Bool)
    (columns : Option Nat) :
    oneShot json columns text = ⟨2, { err := usage ++ complaint .emptyQuery }⟩ := by
  unfold oneShot queryOf?
  rw [trim_eq_nil_iff.2 h]
  rfl

theorem oneShot_of_not_blank {text : String} (h : ¬∀ c ∈ text.toList, isBlank c = true)
    (json : Bool) (columns : Option Nat) :
    oneShot json columns text = ⟨0, { out := showQuery json columns (trimmed text) }⟩ := by
  rw [← trim_eq_nil_iff] at h
  unfold oneShot queryOf? trimmed
  cases htrim : trim text.toList with
  | nil => exact absurd htrim h
  | cons c t => rfl

section

variable {args : List String} (environment : Option String) (stdin : List UInt8)
  (columns : Option Nat)

/-- The first fault is the one that is told. -/
theorem run_of_isFaulty {before after : List Item} {item : Item}
    (heq : items args = before ++ item :: after) (h : Passes before)
    (hfault : item.IsFaulty before) :
    run args environment stdin columns = rejected item.fault := by
  rw [run, readArguments_eq, heq, h.readItems_of_isFaulty hfault]

theorem run_of_faultFirst (h : FaultFirst (items args)) :
    ∃ e, run args environment stdin columns = rejected e := by
  obtain ⟨before, item, after, heq, hpasses, hfault⟩ := h.exists_first
  exact ⟨item.fault, run_of_isFaulty environment stdin columns heq hpasses hfault⟩

theorem run_of_helpFirst (h : HelpFirst (items args)) :
    run args environment stdin columns = ⟨0, { err := usage }⟩ := by
  rw [run, readArguments_eq, readItems_of_helpFirst h]

theorem run_of_passes (h : Passes (items args)) : run args environment stdin columns =
    runWith (summary (items args)) (showsJson (items args) environment) columns stdin := by
  rw [run, readArguments_eq, h.readItems_eq]
  rfl

theorem run_of_interactive (h : Passes (items args)) (hi : .interactive ∈ items args) :
    run args environment stdin columns = ⟨0,
      session (showsJson (items args) environment) columns ((lineBytes stdin).map decode?)⟩ := by
  rw [run_of_passes environment stdin columns h, runWith]
  exact if_pos (decide_eq_true hi)

theorem run_of_reads (h : IsOneShot (items args)) {text : String}
    (hreads : Reads (items args) stdin text) :
    run args environment stdin columns =
      oneShot (showsJson (items args) environment) columns text := by
  rw [run_of_passes environment stdin columns h.passes, runWith, if_neg h.interactive_ne]
  unfold summary
  rcases hreads with hquery | ⟨hquery, rfl⟩
  · rw [hquery]
  · rw [hquery, decode?_encode, String.ofList_toList]

theorem run_of_not_reads (h : IsOneShot (items args)) (hquery : queryText? (items args) = none)
    (hstdin : ∀ text : String, stdin ≠ encode text.toList) :
    run args environment stdin columns = ⟨74, { err := complaint .invalidText }⟩ := by
  rw [run_of_passes environment stdin columns h.passes, runWith, if_neg h.interactive_ne]
  unfold summary
  rw [hquery, decode?_eq_none_iff.2 hstdin]
  rfl

end

/-- There is no other way for a run to end. -/
theorem run_ends (args : List String) (environment : Option String) (stdin : List UInt8)
    (columns : Option Nat) :
    Ends args environment stdin columns (run args environment stdin columns) := by
  rcases passes_or (items args) with h | h | h
  · have hdecided := passes_iff.1 h
    by_cases hi : .interactive ∈ items args
    · rw [run_of_interactive environment stdin columns h hi]
      exact .interactive hdecided.1 hdecided.2 hi
    · have hone : IsOneShot (items args) := ⟨hdecided.1, hdecided.2, hi⟩
      by_cases hreads : ∃ text, Reads (items args) stdin text
      · obtain ⟨text, hreads⟩ := hreads
        rw [run_of_reads environment stdin columns hone hreads]
        by_cases hblank : ∀ c ∈ text.toList, isBlank c = true
        · rw [oneShot_of_blank hblank]
          exact .blank hone hreads hblank
        · rw [oneShot_of_not_blank hblank]
          exact .shown hone hreads hblank
      · rw [exists_reads_iff, not_not] at hreads
        rw [run_of_not_reads environment stdin columns hone hreads.1 hreads.2]
        exact .unreadable hone hreads.1 hreads.2
  · obtain ⟨e, he⟩ := run_of_faultFirst environment stdin columns h
    rw [he]
    exact .faulty h e
  · rw [run_of_helpFirst environment stdin columns h]
    exact .help h

/-! ## Telling the outcomes apart -/

theorem exists_usage_eq : ∃ rest, usage = "Us" ++ rest := by
  have hfirst : "Usage:" ++ "\n" = "Us" ++ "age:\n" := by decide
  unfold usage unlines usageLines
  rw [List.map_cons, String.join_cons, hfirst, String.append_assoc]
  exact ⟨_, rfl⟩

theorem usage_ne_empty : usage ≠ "" := by
  obtain ⟨rest, hrest⟩ := exists_usage_eq
  rw [hrest, ne_eq, String.append_eq_empty_iff]
  exact fun h => absurd h.1 (by decide)

theorem complaint_ne_empty (f : Failure) : complaint f ≠ "" := by
  unfold complaint
  rw [ne_eq, String.append_eq_empty_iff, String.append_eq_empty_iff]
  exact fun h => absurd h.1.1 (by decide)

theorem err_rejected_ne_empty (e : ArgumentError) : (rejected e).output.err ≠ "" := by
  show e.message ++ "\n" ++ usage ≠ ""
  rw [ne_eq, String.append_eq_empty_iff]
  exact fun h => usage_ne_empty h.2

theorem out_session_ne_empty (json : Bool) (columns : Option Nat) (lines : List (Option String)) :
    (session json columns lines).out ≠ "" := by
  show banner ++ (dialogue json columns lines).out ≠ ""
  rw [ne_eq, String.append_eq_empty_iff]
  exact fun h => absurd h.1 (by decide)

theorem ArgumentError.exists_message_eq (e : ArgumentError) :
    ∃ rest, e.message = "--" ++ rest ∨ e.message = "Un" ++ rest := by
  cases e with
  | missingQuery => exact ⟨"query requires a value", .inl (by decide)⟩
  | unrecognized argument =>
    have hfront : "Unrecognized argument: " = "Un" ++ "recognized argument: " := by decide
    refine ⟨"recognized argument: " ++ argument, .inr ?_⟩
    exact (congrArg (· ++ argument) hfront).trans (String.append_assoc ..)

/-- Arguments that are not in order are not told of with the usage in front. -/
theorem err_rejected_ne (e : ArgumentError) (text : String) :
    (rejected e).output.err ≠ usage ++ text := by
  obtain ⟨rest, hrest⟩ := exists_usage_eq
  obtain ⟨message, hmessage⟩ := e.exists_message_eq
  show e.message ++ "\n" ++ usage ≠ usage ++ text
  intro h
  have hchars := congrArg String.toList h
  rw [hrest] at hchars
  rcases hmessage with hmessage | hmessage
  · rw [hmessage] at hchars
    simp [String.toList_append] at hchars
  · rw [hmessage] at hchars
    simp [String.toList_append] at hchars

namespace Ends

variable {args : List String} {environment : Option String} {stdin : List UInt8}
  {columns : Option Nat} {outcome : Outcome} (h : Ends args environment stdin columns outcome)

include h

theorem faultFirst {e : ArgumentError} (heq : outcome = rejected e) : FaultFirst (items args) := by
  have hcode : outcome.exitCode = 2 := congrArg Outcome.exitCode heq
  have herr : outcome.output.err = (rejected e).output.err := congrArg (·.output.err) heq
  cases h with
  | faulty hfault => exact hfault
  | help | interactive | unreadable | shown => cases hcode
  | blank => exact absurd herr.symm (err_rejected_ne e _)

theorem helpFirst (heq : outcome = ⟨0, { err := usage }⟩) : HelpFirst (items args) := by
  have hcode : outcome.exitCode = 0 := congrArg Outcome.exitCode heq
  have hout : outcome.output.out = "" := congrArg (·.output.out) heq
  have herr : outcome.output.err = usage := congrArg (·.output.err) heq
  cases h with
  | help hhelp => exact hhelp
  | faulty | unreadable | blank => cases hcode
  | interactive => exact absurd hout (out_session_ne_empty _ _ _)
  | shown => exact absurd herr.symm usage_ne_empty

theorem exitCode : outcome.exitCode = 0 ∨ outcome.exitCode = 2 ∨ outcome.exitCode = 74 := by
  cases h with
  | faulty | blank => exact .inr (.inl rfl)
  | unreadable => exact .inr (.inr rfl)
  | help | interactive | shown => exact .inl rfl

theorem output_of_exitCode_ne (hcode : outcome.exitCode ≠ 0) :
    outcome.output.out = "" ∧ outcome.output.err ≠ "" := by
  cases h with
  | faulty _ e => exact ⟨rfl, err_rejected_ne_empty e⟩
  | unreadable => exact ⟨rfl, complaint_ne_empty _⟩
  | blank =>
    refine ⟨rfl, ?_⟩
    rw [ne_eq, String.append_eq_empty_iff]
    exact fun herr => usage_ne_empty herr.1
  | help | interactive | shown => exact absurd rfl hcode

theorem exitCode_eq_unreadable_iff : outcome.exitCode = 74 ↔ IsOneShot (items args) ∧
    queryText? (items args) = none ∧ ∀ text : String, stdin ≠ encode text.toList := by
  constructor
  · intro hcode
    cases h with
    | unreadable hone hquery hstdin => exact ⟨hone, hquery, hstdin⟩
    | faulty | help | interactive | blank | shown => cases hcode
  · rintro ⟨hone, hnone⟩
    cases h with
    | faulty hfault => exact absurd hfault hone.not_faultFirst
    | help hhelp => exact absurd hhelp hone.not_helpFirst
    | interactive _ _ hi => exact absurd hi hone.not_interactive
    | unreadable => rfl
    | blank _ hreads | shown _ hreads => exact absurd hnone (exists_reads_iff.1 ⟨_, hreads⟩)

theorem exitCode_eq_rejected_iff : outcome.exitCode = 2 ↔ FaultFirst (items args) ∨
    IsOneShot (items args) ∧ ∃ text, Reads (items args) stdin text ∧
      ∀ c ∈ text.toList, isBlank c = true := by
  constructor
  · intro hcode
    cases h with
    | faulty hfault => exact .inl hfault
    | blank hone hreads hblank => exact .inr ⟨hone, _, hreads, hblank⟩
    | help | interactive | unreadable | shown => cases hcode
  · rintro (hfault | ⟨hone, text, hreads, hblank⟩)
    · cases h with
      | faulty => rfl
      | help hhelp => exact absurd hfault hhelp.not_faultFirst
      | interactive hnot => exact absurd hfault hnot
      | unreadable hone | blank hone | shown hone => exact absurd hfault hone.not_faultFirst
    · cases h with
      | faulty | blank => rfl
      | help hhelp => exact absurd hhelp hone.not_helpFirst
      | interactive _ _ hi => exact absurd hi hone.not_interactive
      | unreadable _ hquery hstdin =>
        exact absurd ⟨hquery, hstdin⟩ (exists_reads_iff.1 ⟨text, hreads⟩)
      | shown _ hreads' hnot =>
        rw [hreads'.unique hreads] at hnot
        exact absurd hblank hnot

theorem exists_shown (hi : .interactive ∉ items args) (hhelp : ¬HelpFirst (items args))
    (hcode : outcome.exitCode = 0) : ∃ text, Reads (items args) stdin text ∧
      outcome.output =
        { out := showClause (showsJson (items args) environment) columns (.ofQuery (trimmed text))
          err := "" } := by
  cases h with
  | shown _ hreads => exact ⟨_, hreads, rfl⟩
  | help h => exact absurd h hhelp
  | interactive _ _ h => exact absurd h hi
  | faulty | unreadable | blank => cases hcode

end Ends

/-! ## The laws of a run -/

/-- A run is decided by the items of its arguments: a fault or help, whichever comes first, or else
the options that the items come to in any order. -/
theorem run_items (args : List String) (environment : Option String) (stdin : List UInt8)
    (columns : Option Nat) :
    (items args).flatMap Item.arguments = args ∧
    ((∃ e, run args environment stdin columns = rejected e) ↔ FaultFirst (items args)) ∧
    (run args environment stdin columns = ⟨0, { err := usage }⟩ ↔ HelpFirst (items args)) ∧
    (¬FaultFirst (items args) → ¬HelpFirst (items args) →
      ∃ o json, run args environment stdin columns = runWith o json columns stdin ∧
        (o.interactive = true ↔ .interactive ∈ items args) ∧
        (json = true ↔ .json ∈ items args ∨ ∃ value, environment = some value ∧
          value.toList.map Char.toLower = "json".toList) ∧
        o.query = queryText? (items args)) ∧
    ∀ l : List Item, l.Perm (items args) → ¬FaultFirst (items args) →
      (∀ item ∈ items args, ¬item.IsHelp) → (items args).countP Item.givesQuery ≤ 1 →
        run (l.flatMap Item.arguments) environment stdin columns =
          run args environment stdin columns := by
  have hends := run_ends args environment stdin columns
  refine ⟨flatMap_items args, ⟨?_, run_of_faultFirst environment stdin columns⟩,
    ⟨hends.helpFirst, run_of_helpFirst environment stdin columns⟩, ?_, ?_⟩
  · rintro ⟨e, he⟩
    exact hends.faultFirst he
  · intro hfault hhelp
    have hpasses : Passes (items args) := passes_iff.2 ⟨hfault, hhelp⟩
    exact ⟨_, _, run_of_passes environment stdin columns hpasses, decide_eq_true_iff,
      showsJson_iff, rfl⟩
  · intro l hperm hfault hnohelp hone
    have hhelp : ¬HelpFirst (items args) := by
      rintro ⟨before, item, after, heq, hitem, -⟩
      exact hnohelp item (heq ▸ List.mem_append_right _ List.mem_cons_self) hitem
    rw [run, readArguments_of_perm (passes_iff.2 ⟨hfault, hhelp⟩) hperm hone, run]

/-- The value of an option for the query may look like an option; it moves with its option. -/
theorem run_items_reordered :
    run ["--repl", "-q", "--json"] none [] = run ["-q", "--json", "--repl"] none [] := by
  obtain ⟨query, hquery⟩ : ∃ query : Item, query = .query ⟨"-q", .inr rfl⟩ "--json" := ⟨_, rfl⟩
  have hitems : items ["-q", "--json", "--repl"] = [query, .interactive] := by
    rw [hquery]
    rfl
  have hpasses : Passes [query, .interactive] := by
    rw [hquery]
    exact passes_concat.2 ⟨passes_concat.2 ⟨passes_nil, rfl⟩, rfl⟩
  have hperm := (run_items ["-q", "--json", "--repl"] none [] none).2.2.2.2 [.interactive, query]
  rw [hitems] at hperm
  have hrun := hperm (.swap ..) (passes_iff.1 hpasses).1 hpasses.not_isHelp (by rw [hquery]; decide)
  rwa [hquery] at hrun

/-- A run that fails leaves nothing on the standard output, and its exit status tells why it
failed.  A run of one query that does not fail shows one clause and nothing else. -/
theorem run_exitCode (args : List String) (environment : Option String) (stdin : List UInt8)
    (columns : Option Nat) :
    ((run args environment stdin columns).exitCode = 0 ∨
      (run args environment stdin columns).exitCode = 2 ∨
      (run args environment stdin columns).exitCode = 74) ∧
    ((run args environment stdin columns).exitCode ≠ 0 →
      (run args environment stdin columns).output.out = "" ∧
        (run args environment stdin columns).output.err ≠ "") ∧
    ((run args environment stdin columns).exitCode = 74 ↔ IsOneShot (items args) ∧
      queryText? (items args) = none ∧ ∀ text : String, stdin ≠ encode text.toList) ∧
    ((run args environment stdin columns).exitCode = 2 ↔ FaultFirst (items args) ∨
      IsOneShot (items args) ∧ ∃ text, Reads (items args) stdin text ∧
        ∀ c ∈ text.toList, isBlank c = true) ∧
    (.interactive ∉ items args → ¬HelpFirst (items args) →
      (run args environment stdin columns).exitCode = 0 → ∃ text, Reads (items args) stdin text ∧
        (run args environment stdin columns).output =
          { out :=
              showClause (showsJson (items args) environment) columns (.ofQuery (trimmed text))
            err := "" }) := by
  have hends := run_ends args environment stdin columns
  exact ⟨hends.exitCode, hends.output_of_exitCode_ne, hends.exitCode_eq_unreadable_iff,
    hends.exitCode_eq_rejected_iff, hends.exists_shown⟩

/-- The query is read from the standard input, without the white space around it. -/
theorem run_exitCode_stdin :
    (run ["--json"] none (encode " count(x)\n".toList)).output =
      { out := showClause true none (.ofQuery "count(x)"), err := "" } := by
  have hitems : items ["--json"] = [.json] := rfl
  have hpasses : Passes (items ["--json"]) := hitems ▸ passes_concat.2 ⟨passes_nil, rfl⟩
  have hreads : Reads (items ["--json"]) (encode " count(x)\n".toList) " count(x)\n" :=
    .inr ⟨rfl, rfl⟩
  have hone : IsOneShot (items ["--json"]) :=
    ⟨(passes_iff.1 hpasses).1, (passes_iff.1 hpasses).2, by rw [hitems]; decide⟩
  have htrim : trimmed " count(x)\n" = "count(x)" := by decide +kernel
  have hblank : ¬∀ c ∈ " count(x)\n".toList, isBlank c = true := fun h =>
    absurd (h 'c' (by decide)) (by decide)
  have hcode : (run ["--json"] none (encode " count(x)\n".toList)).exitCode = 0 := by
    rw [run_of_reads none _ none hone hreads, oneShot_of_not_blank hblank]
  obtain ⟨text, htext, hshown⟩ := (run_exitCode ["--json"] none _ none).2.2.2.2
    hone.not_interactive hone.not_helpFirst hcode
  rw [hshown, htext.unique hreads, htrim]
  rfl

end QueryStats.Command
