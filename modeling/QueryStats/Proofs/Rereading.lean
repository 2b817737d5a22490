import Mathlib.Logic.Relation
import QueryStats.Command.Output
import QueryStats.Proofs.Decoding
import QueryStats.Proofs.Printing

/-!
# Reading back a printed clause

A clause that is printed as JSON is read back as the same clause.  So is every value that comes from
one that is read as the clause by changes that the readers of a clause do not see: members with
names of their own in any object, and a time bucket that is `null` left out.  `Clause.shape` says
what is expected at each place; the readers of the parts of a clause are stable, one after the
other, by the rules for lists and records.
-/

namespace QueryStats

open Json

/-! ## Shapes -/

/-- The shape of a record whose members are texts. -/
def textsShape (names : List String) : Shape := .record (names.map (·, .text))

def Aggregation.functionShape : Shape :=
  textsShape ["name", "valueExpression", "percentileArgument"]

def Aggregation.shape : Shape := .record [("alias", .text), ("function", functionShape)]

def Bucket.expressionShape : Shape := textsShape ["field", "literalValue", "timeUnit", "kind"]

def Bucket.shape : Shape := .record [("alias", .text), ("expression", expressionShape)]

def Grouping.shape : Shape :=
  .record [("fields", .list (textsShape ["name"])), ("span", .nullable Bucket.shape)]

/-- What a reader of a clause expects. -/
def Clause.shape : Shape :=
  .record [("aggregations", .list Aggregation.shape), ("groupBy", Grouping.shape)]

/-! ## What the readers do not see -/

theorem Aggregation.stable_readFunction : Stable readFunction functionShape :=
  (stable_readStrings _ (by decide)).bind _

theorem Aggregation.stable_ofJson : Stable Aggregation.ofJson Aggregation.shape :=
  (stable_readPair _ (by decide) stable_readString stable_readFunction rfl rfl).bind _

theorem Bucket.stable_readExpression : Stable readExpression expressionShape :=
  (stable_readStrings _ (by decide)).bind _

theorem Bucket.stable_ofJson : Stable Bucket.ofJson Bucket.shape :=
  (stable_readPair _ (by decide) stable_readString stable_readExpression rfl rfl).bind _

theorem stable_readField : Stable readField (textsShape ["name"]) :=
  (stable_readStrings _ (by decide)).bind _

/-- A missing time bucket and one that is `null` come to the same. -/
theorem Grouping.ofJson_eq (j : Json) : Grouping.ofJson j =
    (fun d => (d.1, d.2.join)) <$> readPair (recordKind "GroupBySpec")
        ("fields", readList readField) ("span", readNullable Bucket.ofJson) j >>=
      fun d => (⟨·, d.2⟩) <$> required "fields" d.1 := by
  rw [Grouping.ofJson, bind_map_left]
  rfl

theorem Grouping.stable_ofJson : Stable Grouping.ofJson Grouping.shape := by
  have h := stable_readPair_nullable (recordKind "GroupBySpec") "fields" "span" (by decide)
    stable_readField.readList Bucket.stable_ofJson rfl
  exact funext Grouping.ofJson_eq ▸ h.bind _

theorem Clause.stable_ofJson : Stable Clause.ofJson Clause.shape :=
  (stable_readPair _ (by decide) Aggregation.stable_ofJson.readList Grouping.stable_ofJson rfl
    rfl).bind _

/-! ## What was written is read -/

theorem Aggregation.ofJson_toJson (a : Aggregation) : Aggregation.ofJson a.toJson = .ok a := rfl

theorem Bucket.ofJson_toJson (b : Bucket) : Bucket.ofJson b.toJson = .ok b := rfl

theorem readField_fieldToJson (name : String) : readField (fieldToJson name) = .ok name := rfl

theorem Grouping.ofJson_toJson (g : Grouping) : Grouping.ofJson g.toJson = .ok g := by
  have hfields := readList_map readField_fieldToJson g.fields
  have hspan :=
    readNullable_getD (f := Bucket.toJson) (fun _ => nofun) Bucket.ofJson_toJson g.bucket
  rw [Grouping.ofJson, Grouping.toJson, readPair_object _ (by decide) hfields hspan]
  rfl

theorem Clause.ofJson_toJson (c : Clause) : Clause.ofJson c.toJson = .ok c := by
  have haggregations := readList_map Aggregation.ofJson_toJson c.aggregations
  rw [Clause.ofJson, Clause.toJson,
    readPair_object _ (by decide) haggregations c.grouping.ofJson_toJson]
  rfl

/-! ## What is printed -/

theorem numberless_list {α : Type} {f : α → Json} (h : ∀ a, Numberless (f a)) (as : List α) :
    Numberless (.array (as.map f)) := by
  refine .array fun j hj => ?_
  obtain ⟨a, -, rfl⟩ := List.mem_map.1 hj
  exact h a

theorem numberless_texts (members : List (String × String)) :
    Numberless (.object (members.map fun m => (m.1, .string m.2))) := by
  refine .object fun m hm => ?_
  obtain ⟨m, -, rfl⟩ := List.mem_map.1 hm
  exact .string m.2

theorem numberless_pair {m₁ m₂ : String × Json} (h₁ : Numberless m₁.2) (h₂ : Numberless m₂.2) :
    Numberless (.object [m₁, m₂]) := by
  refine .object fun m hm => ?_
  rcases List.mem_pair.1 hm with rfl | rfl
  · exact h₁
  · exact h₂

theorem Aggregation.numberless_toJson (a : Aggregation) : Numberless a.toJson :=
  numberless_pair (.string a.label) (numberless_texts [("name", a.name),
    ("valueExpression", a.argument), ("percentileArgument", a.percentile)])

theorem Bucket.numberless_toJson (b : Bucket) : Numberless b.toJson :=
  numberless_pair (.string b.label) (numberless_texts [("field", b.field),
    ("literalValue", b.amount), ("timeUnit", b.unit), ("kind", b.kind)])

theorem Grouping.numberless_toJson (g : Grouping) : Numberless g.toJson := by
  refine numberless_pair (numberless_list (fun name => numberless_texts [("name", name)]) _) ?_
  cases g.bucket with
  | none => exact .null
  | some b => exact b.numberless_toJson

theorem Clause.numberless_toJson (c : Clause) : Numberless c.toJson :=
  numberless_pair (numberless_list Aggregation.numberless_toJson _) c.grouping.numberless_toJson

/-- What the command prints for a clause as JSON is a JSON text. -/
theorem Clause.isText_showClause (c : Clause) (columns : Option Nat) :
    IsText (Command.showClause true columns c).toList c.toJson := by
  have h := (c.numberless_toJson.isText 0).spaced isSpaces_nil (b := ['\n']) (by decide)
  rw [Command.showClause, if_pos rfl, String.toList_append, pretty, String.toList_ofList]
  exact h

theorem Clause.ofText?_showClause (c : Clause) (columns : Option Nat) :
    ofText? (Command.showClause true columns c) = some c.toJson := by
  have h := (c.isText_showClause columns).ofText?
  rwa [String.ofList_toList] at h

/-- A clause printed as JSON is a JSON text that is read as the clause; and so is every value that
comes from one that is read as the clause by changes that its readers do not see. -/
theorem Clause.ofJson_showClause (c : Clause) (columns : Option Nat) :
    (IsText (Command.showClause true columns c).toList c.toJson ∧
      (ofText? (Command.showClause true columns c)).map Clause.ofJson = some (.ok c)) ∧
    ∀ v v', Clause.ofJson v = .ok c → Relation.ReflTransGen (Harmless Clause.shape) v v' →
      Clause.ofJson v' = .ok c := by
  refine ⟨⟨c.isText_showClause columns, ?_⟩, fun v v' hv h => ?_⟩
  · rw [c.ofText?_showClause, Option.map_some, c.ofJson_toJson]
  · induction h with
    | refl => exact hv
    | tail _ h ih => exact Clause.stable_ofJson h ih

/-- A member of its own is added to a clause, and the missing time bucket is left out. -/
theorem Clause.ofJson_of_extra_of_absent :
    Clause.ofJson (.object [("aggregations", .array []),
      ("groupBy", .object [("fields", .array [])]), ("version", .integer 2)]) =
        .ok ⟨[], ⟨[], none⟩⟩ := by
  have habsent : Harmless Grouping.shape (.object [("fields", .array []), ("span", .null)])
      (.object [("fields", .array [])]) :=
    @Harmless.absent _ [("fields", .array [])] [] "span" _
      (List.mem_cons_of_mem _ List.mem_cons_self) (by decide)
  have h₁ : Harmless Clause.shape (Clause.toJson ⟨[], ⟨[], none⟩⟩)
      (.object [("aggregations", .array []), ("groupBy", .object [("fields", .array [])])]) :=
    @Harmless.member _ [("aggregations", .array [])] [] "groupBy" _ _ _
      (List.mem_cons_of_mem _ List.mem_cons_self) habsent
  have h₂ : Harmless Clause.shape
      (.object [("aggregations", .array []), ("groupBy", .object [("fields", .array [])])])
      (.object [("aggregations", .array []), ("groupBy", .object [("fields", .array [])]),
        ("version", .integer 2)]) :=
    @Harmless.extra _ [("aggregations", .array []), ("groupBy", .object [("fields", .array [])])]
      [] "version" (.integer 2) (by decide)
  exact (Clause.ofJson_showClause _ none).2 _ _ (Clause.ofJson_toJson _) (.tail (.single h₁) h₂)

end QueryStats
