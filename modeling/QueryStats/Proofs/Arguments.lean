import Mathlib.Data.List.Induction
import Mathlib.Data.List.Perm.Basic
import QueryStats.Command.Options

/-!
# The grammar of the command line

The arguments are read from left to right as items: an option, an option for the query with the
argument after it, or an argument that is no option.  Items can be told from the arguments that they
are made of (`flatMap_items`, `items_flatMap`).  The reading ends at the first item that asks for
help or that there is a fault with (`passes_or_stops`); where there is none, the options come from
the items as a whole (`summary`), and the order of the items hardly matters (`Passes.perm`).
-/

namespace QueryStats.Command

/-! ## Items -/

def IsQueryOption (a : String) : Prop := a = "--query" ∨ a = "-q"

def IsHelpOption (a : String) : Prop := a = "-h" ∨ a = "--help"

def IsOption (a : String) : Prop :=
  IsQueryOption a ∨ a = "--repl" ∨ a = "--json" ∨ IsHelpOption a

instance (a : String) : Decidable (IsQueryOption a) := inferInstanceAs (Decidable (_ ∨ _))

instance (a : String) : Decidable (IsHelpOption a) := inferInstanceAs (Decidable (_ ∨ _))

theorem IsHelpOption.not {a : String} (h : IsHelpOption a) :
    ¬IsQueryOption a ∧ a ≠ "--repl" ∧ a ≠ "--json" := by
  rcases h with rfl | rfl
  · decide
  · decide

theorem not_isOption_iff {a : String} :
    ¬IsOption a ↔ ¬IsQueryOption a ∧ a ≠ "--repl" ∧ a ≠ "--json" ∧ ¬IsHelpOption a := by
  unfold IsOption
  rw [not_or, not_or, not_or]

/-- A part of the command line that has a meaning of its own. -/
inductive Item where
  | query (word : {a : String // IsQueryOption a}) (value : String)
  /-- An option for the query with no argument after it. -/
  | unfinished (word : {a : String // IsQueryOption a})
  | interactive
  | json
  | help (word : {a : String // IsHelpOption a})
  | positional (text : {a : String // ¬IsOption a})
  deriving DecidableEq

/-- The items of a list of arguments. -/
def items : List String → List Item
  | [] => []
  | a :: rest =>
    if hq : IsQueryOption a then
      match rest with
      | [] => [.unfinished ⟨a, hq⟩]
      | value :: rest => .query ⟨a, hq⟩ value :: items rest
    else if hr : a = "--repl" then .interactive :: items rest
    else if hj : a = "--json" then .json :: items rest
    else if hh : IsHelpOption a then .help ⟨a, hh⟩ :: items rest
    else .positional ⟨a, not_isOption_iff.2 ⟨hq, hr, hj, hh⟩⟩ :: items rest

namespace Item

/-- The arguments that an item is made of. -/
def arguments : Item → List String
  | query word value => [word, value]
  | unfinished word => [word.1]
  | interactive => ["--repl"]
  | json => ["--json"]
  | help word => [word.1]
  | positional text => [text.1]

/-- The argument after an option for the query. -/
def value? : Item → Option String
  | query _ value => some value
  | _ => none

def positional? : Item → Option String
  | positional text => some text
  | _ => none

def IsHelp : Item → Prop
  | help _ => True
  | _ => False

def IsUnfinished : Item → Prop
  | unfinished _ => True
  | _ => False

/-- Whether an item gives a query. -/
def givesQuery : Item → Bool
  | query .. => true
  | positional _ => true
  | _ => false

/-- Whether there is a fault with an item that stands behind others. -/
def IsFaulty (before : List Item) : Item → Prop
  | unfinished _ => True
  | positional text => "--".toList <+: text.1.toList ∨ ∃ i ∈ before, i.givesQuery = true
  | _ => False

/-- The items of the arguments that an item is made of, and of those behind them. -/
theorem items_arguments_append {item : Item} (h : ¬item.IsUnfinished) (rest : List String) :
    items (item.arguments ++ rest) = item :: items rest := by
  cases item with
  | query word value =>
    show items (word.1 :: value :: rest) = _
    rw [items, dif_pos word.2]
  | unfinished word => exact absurd trivial h
  | interactive =>
    show items ("--repl" :: rest) = _
    rw [items, dif_neg (by decide), dif_pos rfl]
  | json =>
    show items ("--json" :: rest) = _
    rw [items, dif_neg (by decide), dif_neg (by decide), dif_pos rfl]
  | help word =>
    show items (word.1 :: rest) = _
    have hword := word.2.not
    rw [items, dif_neg hword.1, dif_neg hword.2.1, dif_neg hword.2.2, dif_pos word.2]
  | positional text =>
    show items (text.1 :: rest) = _
    have htext := not_isOption_iff.1 text.2
    rw [items, dif_neg htext.1, dif_neg htext.2.1, dif_neg htext.2.2.1, dif_neg htext.2.2.2]

end Item

/-- The items of a list of arguments, one after the other, are made of these arguments. -/
theorem flatMap_items (args : List String) : (items args).flatMap Item.arguments = args := by
  fun_induction items args with
  | case1 => rfl
  | case2 => rfl
  | case3 a _ value rest ih => exact congrArg (a :: value :: ·) ih
  | case4 rest _ ih => exact congrArg ("--repl" :: ·) ih
  | case5 rest _ _ ih => exact congrArg ("--json" :: ·) ih
  | case6 a rest _ _ _ _ ih => exact congrArg (a :: ·) ih
  | case7 a rest _ _ _ _ ih => exact congrArg (a :: ·) ih

/-- Items are read back from the arguments that they are made of. -/
theorem items_flatMap {l : List Item} (h : ∀ item ∈ l, ¬item.IsUnfinished) :
    items (l.flatMap Item.arguments) = l := by
  induction l with
  | nil => rfl
  | cons item l ih =>
    rw [List.forall_mem_cons] at h
    rw [List.flatMap_cons, Item.items_arguments_append h.1, ih h.2]

/-! ## What items come to -/

/-- The query that items give: that of the last option for it, or else what is no option. -/
def queryText? (l : List Item) : Option String :=
  (l.filterMap Item.value?).getLast?.or (l.filterMap Item.positional?).head?

/-- The options that items come to. -/
def summary (l : List Item) : Options :=
  ⟨queryText? l, decide (.interactive ∈ l), decide (.json ∈ l)⟩

/-- How a fault with an item is told. -/
def Item.fault : Item → ArgumentError
  | positional text => .unrecognized text
  | _ => .missingQuery

/-- What the arguments come to at an item behind others, if the reading of them ends there. -/
def Item.stop? (before : List Item) : Item → Option Invocation
  | help _ => some .help
  | unfinished _ => some (.invalid .missingQuery)
  | positional text =>
    if (queryText? before).isNone && !"--".toList.isPrefixOf text.1.toList then none
    else some (.invalid (.unrecognized text))
  | _ => none

/-- Reads items that stand behind others. -/
def readItems (before : List Item) : List Item → Invocation
  | [] => .run (summary before)
  | item :: rest => (item.stop? before).getD (readItems (before ++ [item]) rest)

theorem queryText?_eq_none_iff {l : List Item} :
    queryText? l = none ↔ ∀ item ∈ l, item.givesQuery = false := by
  unfold queryText?
  rw [Option.or_eq_none_iff, List.getLast?_eq_none_iff, List.head?_eq_none_iff,
    List.filterMap_eq_nil_iff, List.filterMap_eq_nil_iff, ← forall₂_and]
  refine forall₂_congr fun item _ => ?_
  cases item <;> simp [Item.value?, Item.positional?, Item.givesQuery]

/-- The options after an item that the reading goes on behind. -/
def Item.apply (o : Options) : Item → Options
  | query _ value => { o with query := some value }
  | unfinished _ => o
  | interactive => { o with interactive := true }
  | json => { o with json := true }
  | help _ => o
  | positional text => { o with query := some text.1 }

theorem queryText?_concat_positional {before : List Item} (h : queryText? before = none)
    (text : {a : String // ¬IsOption a}) :
    queryText? (before ++ [.positional text]) = some text.1 := by
  unfold queryText? at h ⊢
  rw [Option.or_eq_none_iff, List.getLast?_eq_none_iff, List.head?_eq_none_iff] at h
  rw [List.filterMap_append, List.filterMap_append, h.1, h.2]
  rfl

theorem summary_concat {before : List Item} {item : Item} (h : item.stop? before = none) :
    summary (before ++ [item]) = item.apply (summary before) := by
  cases item with
  | query word value => simp [summary, queryText?, Item.apply, Item.value?]
  | unfinished word => cases h
  | interactive => simp [summary, queryText?, Item.apply, Item.value?, Item.positional?]
  | json => simp [summary, queryText?, Item.apply, Item.value?, Item.positional?]
  | help word => cases h
  | positional text =>
    have hnone : queryText? before = none := by
      unfold Item.stop? at h
      simp_all
    simp [summary, Item.apply, queryText?_concat_positional hnone]

theorem readArguments_cons_of_not {a : String} (h : ¬IsQueryOption a) (o : Options)
    (rest : List String) : readArguments o (a :: rest) =
      if a = "--repl" then readArguments { o with interactive := true } rest
      else if a = "--json" then readArguments { o with json := true } rest
      else if IsHelpOption a then .help
      else if o.query.isNone && !"--".toList.isPrefixOf a.toList then
        readArguments { o with query := some a } rest
      else .invalid (.unrecognized a) := by
  rw [readArguments.eq_def]
  simp only [Bool.or_eq_true, decide_eq_true_iff]
  exact if_neg h

/-- What the reading of the arguments does at an item. -/
theorem readArguments_item {item : Item} (h : ¬item.IsUnfinished) (before : List Item)
    (rest : List String) : readArguments (summary before) (item.arguments ++ rest) =
      (item.stop? before).getD (readArguments (item.apply (summary before)) rest) := by
  cases item with
  | query word value =>
    show readArguments _ (word.1 :: value :: rest) = _
    rcases word with ⟨_, rfl | rfl⟩
    · rw [readArguments, if_pos (by decide)]
      rfl
    · rw [readArguments, if_pos (by decide)]
      rfl
  | unfinished word => exact absurd trivial h
  | interactive =>
    show readArguments _ ("--repl" :: rest) = _
    rw [readArguments_cons_of_not (by decide), if_pos rfl]
    rfl
  | json =>
    show readArguments _ ("--json" :: rest) = _
    rw [readArguments_cons_of_not (by decide), if_neg (by decide), if_pos rfl]
    rfl
  | help word =>
    show readArguments _ (word.1 :: rest) = _
    have hword := word.2.not
    rw [readArguments_cons_of_not hword.1, if_neg hword.2.1, if_neg hword.2.2, if_pos word.2]
    rfl
  | positional text =>
    show readArguments _ (text.1 :: rest) = _
    have htext := not_isOption_iff.1 text.2
    rw [readArguments_cons_of_not htext.1, if_neg htext.2.1, if_neg htext.2.2.1,
      if_neg htext.2.2.2, Item.stop?]
    show (if ((queryText? before).isNone && _) = true then _ else _) = _
    split
    · rfl
    · rfl

/-- One step of the reading, told of the items. -/
theorem readArguments_append (item : Item) (h : ¬item.IsUnfinished) {rest : List String}
    {l : List Item} (ih : ∀ before, readArguments (summary before) rest = readItems before l)
    (before : List Item) :
    readArguments (summary before) (item.arguments ++ rest) = readItems before (item :: l) := by
  rw [readArguments_item h, readItems, ← ih]
  cases hstop : item.stop? before with
  | none => rw [summary_concat hstop]
  | some invocation => rfl

/-- The arguments come to what their items come to. -/
theorem readArguments_summary (args : List String) (before : List Item) :
    readArguments (summary before) args = readItems before (items args) := by
  fun_induction items args generalizing before with
  | case1 => rfl
  | case2 a hq =>
    rcases hq with rfl | rfl
    · rfl
    · rfl
  | case3 a hq value rest ih => exact readArguments_append (.query ⟨a, hq⟩ value) id ih before
  | case4 rest _ ih => exact readArguments_append .interactive id ih before
  | case5 rest _ _ ih => exact readArguments_append .json id ih before
  | case6 a rest _ _ _ hh ih => exact readArguments_append (.help ⟨a, hh⟩) id ih before
  | case7 a rest _ _ _ _ ih => exact readArguments_append (.positional ⟨a, _⟩) id ih before

theorem readArguments_eq (args : List String) :
    readArguments {} args = readItems [] (items args) :=
  readArguments_summary args []

/-! ## Where the reading ends -/

/-- There is no fault with any item. -/
def Faultless (l : List Item) : Prop :=
  ∀ before item after, l = before ++ item :: after → ¬item.IsFaulty before

/-- There is a fault with an item, and none of the items before it asks for help. -/
def FaultFirst (l : List Item) : Prop :=
  ∃ before item after, l = before ++ item :: after ∧ (∀ i ∈ before, ¬i.IsHelp) ∧
    item.IsFaulty before

/-- An item asks for help, and there is no fault with any of the items before it. -/
def HelpFirst (l : List Item) : Prop :=
  ∃ before item after, l = before ++ item :: after ∧ item.IsHelp ∧ Faultless before

/-- Items that are read to their end. -/
def Passes (l : List Item) : Prop :=
  ∀ before item after, l = before ++ item :: after → item.stop? before = none

theorem Item.stop?_of_isHelp {item : Item} (h : item.IsHelp) (before : List Item) :
    item.stop? before = some .help := by
  cases item with
  | help word => rfl
  | query | unfinished | interactive | json | positional => cases h

theorem Item.not_isFaulty_positional_iff {text : {a : String // ¬IsOption a}}
    {before : List Item} : ¬IsFaulty before (positional text) ↔
      ((queryText? before).isNone && !"--".toList.isPrefixOf text.1.toList) = true := by
  unfold IsFaulty
  rw [Bool.and_eq_true, Option.isNone_iff_eq_none, queryText?_eq_none_iff, Bool.not_eq_true',
    ← Bool.not_eq_true, List.isPrefixOf_iff_prefix, not_or, and_comm]
  simp only [not_exists, not_and, Bool.not_eq_true]

theorem Item.stop?_of_isFaulty {item : Item} {before : List Item} (h : item.IsFaulty before) :
    item.stop? before = some (.invalid item.fault) := by
  cases item with
  | unfinished word => rfl
  | positional text =>
    exact if_neg fun hstop => absurd h (not_isFaulty_positional_iff.2 hstop)
  | query | interactive | json | help => cases h

theorem Item.stop?_eq_none_iff {item : Item} {before : List Item} :
    item.stop? before = none ↔ ¬item.IsHelp ∧ ¬item.IsFaulty before := by
  constructor
  · intro h
    constructor
    · intro hhelp
      rw [stop?_of_isHelp hhelp] at h
      cases h
    · intro hfault
      rw [stop?_of_isFaulty hfault] at h
      cases h
  · rintro ⟨hhelp, hfault⟩
    cases item with
    | unfinished word => exact absurd trivial hfault
    | help word => exact absurd trivial hhelp
    | positional text => exact if_pos (not_isFaulty_positional_iff.1 hfault)
    | query | interactive | json => rfl

theorem passes_nil : Passes [] := by
  intro before item after h
  cases before <;> cases h

theorem passes_concat {l : List Item} {item : Item} :
    Passes (l ++ [item]) ↔ Passes l ∧ item.stop? l = none := by
  constructor
  · intro h
    refine ⟨fun before i after heq => h before i (after ++ [item]) ?_, h l item [] rfl⟩
    rw [heq, List.append_assoc, List.cons_append]
  · rintro ⟨h, hstop⟩ before i after heq
    rcases List.eq_nil_or_concat after with rfl | ⟨after, j, rfl⟩
    · obtain ⟨rfl, hi⟩ := List.append_inj' heq rfl
      obtain ⟨rfl, -⟩ := List.cons.inj hi
      exact hstop
    · rw [List.concat_eq_append, ← List.cons_append, ← List.append_assoc] at heq
      exact h before i after (List.append_inj' heq rfl).1

/-- Where items are not read to their end, one of them is the first that ends the reading. -/
theorem passes_or_stops (l : List Item) : Passes l ∨
    ∃ before item after, l = before ++ item :: after ∧ Passes before ∧
      (item.IsHelp ∨ item.IsFaulty before) := by
  induction l using List.reverseRecOn with
  | nil => exact .inl passes_nil
  | append_singleton l item ih =>
    rcases ih with h | ⟨before, i, after, rfl, h, hstop⟩
    · by_cases hstop : item.stop? l = none
      · exact .inl (passes_concat.2 ⟨h, hstop⟩)
      · refine .inr ⟨l, item, [], rfl, h, ?_⟩
        rwa [Item.stop?_eq_none_iff, ← not_or, not_not] at hstop
    · refine .inr ⟨before, i, after ++ [item], ?_, h, hstop⟩
      rw [List.append_assoc, List.cons_append]

theorem Passes.readItems_append {l : List Item} (h : Passes l) (rest : List Item) :
    readItems [] (l ++ rest) = readItems l rest := by
  induction l using List.reverseRecOn generalizing rest with
  | nil => rfl
  | append_singleton l item ih =>
    rw [passes_concat] at h
    rw [List.append_assoc, ih h.1, List.singleton_append, readItems, h.2]
    rfl

theorem Passes.readItems_eq {l : List Item} (h : Passes l) :
    readItems [] l = .run (summary l) := by
  have happend := h.readItems_append []
  rwa [List.append_nil] at happend

theorem Passes.readItems_of_isHelp {before : List Item} (h : Passes before) {item : Item}
    (hhelp : item.IsHelp) (after : List Item) :
    readItems [] (before ++ item :: after) = .help := by
  rw [h.readItems_append, readItems, Item.stop?_of_isHelp hhelp]
  rfl

theorem Passes.readItems_of_isFaulty {before : List Item} (h : Passes before) {item : Item}
    (hfault : item.IsFaulty before) (after : List Item) :
    readItems [] (before ++ item :: after) = .invalid item.fault := by
  rw [h.readItems_append, readItems, Item.stop?_of_isFaulty hfault]
  rfl

theorem Passes.not_isHelp {l : List Item} (h : Passes l) : ∀ item ∈ l, ¬item.IsHelp := by
  intro item hitem
  obtain ⟨before, after, heq⟩ := List.append_of_mem hitem
  exact (Item.stop?_eq_none_iff.1 (h before item after heq)).1

theorem Passes.faultless {l : List Item} (h : Passes l) : Faultless l :=
  fun before item after heq => (Item.stop?_eq_none_iff.1 (h before item after heq)).2

/-- The reading ends at the first fault. -/
theorem FaultFirst.exists_first {l : List Item} (h : FaultFirst l) :
    ∃ before item after, l = before ++ item :: after ∧ Passes before ∧ item.IsFaulty before := by
  obtain ⟨before, item, after, rfl, hhelp, hfault⟩ := h
  rcases passes_or_stops before with hpasses | ⟨b, i, a, rfl, hpasses, hstop⟩
  · exact ⟨before, item, after, rfl, hpasses, hfault⟩
  -- The reading may end before the item, but not with help.
  · have hi := hhelp i (List.mem_append_right b List.mem_cons_self)
    refine ⟨b, i, a ++ item :: after, ?_, hpasses, hstop.resolve_left hi⟩
    rw [List.append_assoc, List.cons_append]

theorem readItems_of_faultFirst {l : List Item} (h : FaultFirst l) :
    ∃ e, readItems [] l = .invalid e := by
  obtain ⟨before, item, after, rfl, hpasses, hfault⟩ := h.exists_first
  exact ⟨_, hpasses.readItems_of_isFaulty hfault after⟩

theorem readItems_of_helpFirst {l : List Item} (h : HelpFirst l) : readItems [] l = .help := by
  obtain ⟨before, item, after, rfl, hhelp, hfaultless⟩ := h
  rcases passes_or_stops before with hpasses | ⟨b, i, a, rfl, hpasses, hstop⟩
  · exact hpasses.readItems_of_isHelp hhelp after
  -- The reading may end before the item, but not with a fault.
  · rw [List.append_assoc, List.cons_append]
    exact hpasses.readItems_of_isHelp (hstop.resolve_right (hfaultless b i a rfl)) _

/-- Items are read to their end, or there is a fault, or help is asked for. -/
theorem passes_or (l : List Item) : Passes l ∨ FaultFirst l ∨ HelpFirst l := by
  rcases passes_or_stops l with h | ⟨before, item, after, heq, h, hhelp | hfault⟩
  · exact .inl h
  · exact .inr (.inr ⟨before, item, after, heq, hhelp, h.faultless⟩)
  · exact .inr (.inl ⟨before, item, after, heq, h.not_isHelp, hfault⟩)

theorem HelpFirst.not_faultFirst {l : List Item} (h : HelpFirst l) : ¬FaultFirst l := by
  intro hfault
  obtain ⟨e, he⟩ := readItems_of_faultFirst hfault
  rw [readItems_of_helpFirst h] at he
  cases he

theorem passes_iff {l : List Item} : Passes l ↔ ¬FaultFirst l ∧ ¬HelpFirst l := by
  constructor
  -- The reading of the items has one result only.
  · intro h
    have hread := h.readItems_eq
    constructor
    · intro hfault
      obtain ⟨e, he⟩ := readItems_of_faultFirst hfault
      rw [he] at hread
      cases hread
    · intro hhelp
      rw [readItems_of_helpFirst hhelp] at hread
      cases hread
  · intro h
    exact (passes_or l).resolve_right (not_or.2 h)

/-! ## Other orders of the items -/

theorem Item.IsFaulty.everywhere_or {item : Item} {before : List Item} (h : item.IsFaulty before) :
    (∀ others, item.IsFaulty others) ∨
      item.givesQuery = true ∧ ∃ i ∈ before, i.givesQuery = true := by
  cases item with
  | unfinished word => exact .inl fun _ => trivial
  | positional text =>
    rcases h with h | h
    · exact .inl fun _ => .inl h
    · exact .inr ⟨rfl, h⟩
  | query | interactive | json | help => cases h

theorem Item.givesQuery_of_value? (item : Item) (h : item.value?.isSome) :
    item.givesQuery = true := by
  cases item with
  | query word value => rfl
  | unfinished | interactive | json | help | positional => cases h

theorem Item.givesQuery_of_positional? (item : Item) (h : item.positional?.isSome) :
    item.givesQuery = true := by
  cases item with
  | positional text => rfl
  | query | unfinished | interactive | json | help => cases h

section

variable {l l' : List Item} (hperm : l'.Perm l) (hone : l.countP Item.givesQuery ≤ 1)

include hperm hone

/-- Where at most one item gives a query, the order of the items does not matter. -/
theorem Passes.perm (h : Passes l) : Passes l' := by
  intro before item after heq
  have hmem : item ∈ l := hperm.mem_iff.1 (heq ▸ List.mem_append_right _ List.mem_cons_self)
  obtain ⟨b, a, hl⟩ := List.append_of_mem hmem
  have hstop := Item.stop?_eq_none_iff.1 (h b item a hl)
  refine Item.stop?_eq_none_iff.2 ⟨hstop.1, fun hfault => ?_⟩
  rcases hfault.everywhere_or with hfault | ⟨hgives, i, hi, hgives'⟩
  · exact hstop.2 (hfault b)
  -- A fault that comes from the order of the items takes two of them that give a query.
  · have hbefore : 0 < before.countP Item.givesQuery := List.countP_pos_iff.2 ⟨i, hi, hgives'⟩
    rw [← hperm.countP_eq, heq, List.countP_append, List.countP_cons_of_pos hgives] at hone
    omega

theorem filterMap_eq_of_perm {f : Item → Option String}
    (hf : ∀ item, (f item).isSome → item.givesQuery = true) :
    l'.filterMap f = l.filterMap f := by
  have hlength : (l.filterMap f).length ≤ 1 := by
    rw [List.length_filterMap_eq_countP]
    exact Nat.le_trans (List.countP_mono_left fun item _ => hf item) hone
  have hfilter : (l'.filterMap f).Perm (l.filterMap f) := hperm.filterMap f
  match hl : l.filterMap f with
  | [] => exact List.perm_nil.1 (hl ▸ hfilter)
  | [x] => exact List.perm_singleton.1 (hl ▸ hfilter)
  | x :: y :: rest =>
    rw [hl] at hlength
    simp at hlength

theorem summary_eq_of_perm : summary l' = summary l := by
  unfold summary queryText?
  rw [filterMap_eq_of_perm hperm hone Item.givesQuery_of_value?,
    filterMap_eq_of_perm hperm hone Item.givesQuery_of_positional?,
    decide_eq_decide.2 hperm.mem_iff, decide_eq_decide.2 hperm.mem_iff]

end

theorem Passes.items_flatMap {l : List Item} (h : Passes l) :
    items (l.flatMap Item.arguments) = l := by
  refine Command.items_flatMap fun item hitem hunfinished => ?_
  obtain ⟨before, after, heq⟩ := List.append_of_mem hitem
  refine h.faultless before item after heq ?_
  cases item with
  | unfinished word => trivial
  | query | interactive | json | help | positional => cases hunfinished

theorem readArguments_of_perm {args : List String} {l : List Item} (h : Passes (items args))
    (hperm : l.Perm (items args)) (hone : (items args).countP Item.givesQuery ≤ 1) :
    readArguments {} (l.flatMap Item.arguments) = readArguments {} args := by
  have hl : Passes l := h.perm hperm hone
  rw [readArguments_eq, readArguments_eq, hl.items_flatMap, hl.readItems_eq, h.readItems_eq,
    summary_eq_of_perm hperm hone]

end QueryStats.Command
