import QueryStats.Json.Printer
import QueryStats.Text.Unseen

/-!
# Reading values by shape

A reader takes a JSON value of an expected shape and gives what it stands for, or tells what is
wrong with it.  A record may be written as an object, whose unknown members are passed over, or as
the list of its members in their order.  Its members are read as they stand; after that it is seen
whether one is missing or one too many is there.
-/

namespace QueryStats.Json

/-! ## What is wrong with a value -/

inductive ShapeError where
  /-- It is of another type. -/
  | wrongType (found : Json) (expected : String)
  /-- It is a list of another length. -/
  | wrongLength (found : Nat) (expected : String)
  /-- A member of a record is missing. -/
  | missing (member : String)
  /-- A name is none of those that may stand here. -/
  | unknownVariant (found : String) (variants : List String)
  deriving Repr, Inhabited

/-- A character as it stands in a visible quote. -/
def visibleChar (c : Char) : List Char :=
  if c = '\x22' then ['\\', '\x22']
  else if c = '\\' then ['\\', '\\']
  else if c = '\n' then ['\\', 'n']
  else if c = '\r' then ['\\', 'r']
  else if c = '\t' then ['\\', 't']
  else if c = '\x00' then ['\\', '0']
  else if Text.isUnseen c then
    ['\\', 'u', '\x7b'] ++ Nat.toDigits 16 c.toNat ++ ['\x7d']
  else [c]

/-- A text in quotes, with the characters that are not seen escaped. -/
def visibleQuote (s : String) : String :=
  "\"" ++ String.ofList (s.toList.flatMap visibleChar) ++ "\""

/-- What a value is, as told to the user. -/
def describe : Json → String
  | null => "null"
  | bool b => "boolean `" ++ toString b ++ "`"
  | integer n => "integer `" ++ toString n ++ "`"
  | real negative units => "floating point `" ++ String.ofList (realText negative units) ++ "`"
  | string s => "string " ++ visibleQuote s
  | array _ => "sequence"
  | object _ => "map"

/-- What is wrong with a value, as told to the user. -/
def ShapeError.message : ShapeError → String
  | wrongType found expected => "invalid type: " ++ found.describe ++ ", expected " ++ expected
  | wrongLength found expected =>
    "invalid length " ++ toString found ++ ", expected " ++ expected
  | missing member => "missing field `" ++ member ++ "`"
  | unknownVariant found variants =>
    "unknown variant `" ++ found ++ "`, expected one of " ++
      ", ".intercalate (variants.map fun v => "`" ++ v ++ "`")

/-- A number of elements, as told to the user. -/
def elements (n : Nat) : String := toString n ++ if n = 1 then " element" else " elements"

/-! ## Values -/

/-- A reader of values of one shape. -/
abbrev Reader (α : Type) := Json → Except ShapeError α

def readString : Reader String
  | string s => .ok s
  | j => .error (.wrongType j "a string")

/-- Reads a list whose items have one shape. -/
def readList {α : Type} (item : Reader α) : Reader (List α)
  | array xs => xs.mapM item
  | j => .error (.wrongType j "a sequence")

/-- Reads `null` as nothing. -/
def readNullable {α : Type} (value : Reader α) : Reader (Option α)
  | null => .ok none
  | j => some <$> value j

/-! ## Records -/

/-- How a kind of record is called when something is wrong with it. -/
structure RecordKind where
  /-- What is expected of a value that is no such record. -/
  expected : String
  /-- What is expected of a list with too many items. -/
  shorter : String

/-- A place for a member of a record, which goes into a draft of the record. -/
structure Slot (δ : Type) where
  name : String
  /-- Reads the value of the member into a draft. -/
  fill : Json → δ → Except ShapeError δ

/-- Reads the values of some slots into a draft, one after the other. -/
def fillSlots {δ : Type} : List (Slot δ × Json) → δ → Except ShapeError δ
  | [], draft => .ok draft
  | (slot, j) :: rest, draft => slot.fill j draft >>= fillSlots rest

/-- The members that have a slot. -/
def knownMembers {δ : Type} (slots : List (Slot δ)) (members : List (String × Json)) :
    List (Slot δ × Json) :=
  members.filterMap fun m => (slots.find? (·.name = m.1)).map (·, m.2)

/-- Reads a record into a draft. -/
def readRecord {δ : Type} (kind : RecordKind) (slots : List (Slot δ)) (empty : δ) : Reader δ
  | object members => fillSlots (knownMembers slots members) empty
  | array items => do
    let draft ← fillSlots (slots.zip items) empty
    if items.length < slots.length then
      throw (.wrongLength items.length (kind.expected ++ " with " ++ elements slots.length))
    if slots.length < items.length then throw (.wrongLength items.length kind.shorter)
    return draft
  | j => .error (.wrongType j kind.expected)

def required {α : Type} (name : String) : Option α → Except ShapeError α
  | some a => .ok a
  | none => .error (.missing name)

/-- Reads a record whose members are strings; the strings come with their names. -/
def readStrings (kind : RecordKind) (names : List String) : Reader (List (String × String)) :=
  readRecord kind (names.map fun name => ⟨name, fun j draft =>
    (fun s => (name, s) :: draft) <$> readString j⟩) []

/-- Reads a record with two members. -/
def readPair {α β : Type} (kind : RecordKind) (first : String × Reader α)
    (second : String × Reader β) : Reader (Option α × Option β) :=
  readRecord kind
    [⟨first.1, fun j draft => (fun a => (some a, draft.2)) <$> first.2 j⟩,
      ⟨second.1, fun j draft => (fun b => (draft.1, some b)) <$> second.2 j⟩] (none, none)

end QueryStats.Json
