import QueryStats.Json.Shape

/-!
# Failures

A failure is of one of three kinds, and has a code and a message.  Its kind decides the exit status
of the command.
-/

namespace QueryStats

/-- What a failure comes from. -/
inductive FailureKind where
  | userInput
  | transfer
  | internal
  deriving DecidableEq, Repr, Inhabited

structure Failure where
  kind : FailureKind
  /-- A short name of what went wrong. -/
  code : String
  message : String
  deriving DecidableEq, Repr, Inhabited

/-- The name of a kind of failure. -/
def FailureKind.name : FailureKind → String
  | userInput => "user_input"
  | transfer => "io"
  | internal => "internal"

/-- The name of the variant that holds the failures of a kind. -/
def FailureKind.variant : FailureKind → String
  | userInput => "UserInput"
  | transfer => "Io"
  | internal => "Internal"

/-- The exit status of the command after a failure. -/
def FailureKind.exitCode : FailureKind → Nat
  | userInput => 2
  | transfer => 74
  | internal => 70

def FailureKind.all : List FailureKind := [userInput, transfer, internal]

namespace Failure

/-- The exit status of the command after a failure. -/
def exitCode (f : Failure) : Nat := f.kind.exitCode

/-- A failure as told to the user. -/
def display (f : Failure) : String := f.code ++ ": " ++ f.message

/-- The failure of a query without text. -/
def emptyQuery : Failure := ⟨.userInput, "empty_query", "query text is empty"⟩

/-- The failure of reading or writing. -/
def ofTransfer (message : String) : Failure := ⟨.transfer, "io_error", message⟩

/-- The failure of reading text that is not UTF-8. -/
def invalidText : Failure := ofTransfer "stream did not contain valid UTF-8"

/-- The failure with a chain of causes, the first cause first. -/
def ofCauses (causes : List String) : Failure :=
  ⟨.internal, "internal_error", ": ".intercalate causes.reverse⟩

open Json

def toJson (f : Failure) : Json :=
  .object [("type", .string f.kind.name), ("code", .string f.code), ("message", .string f.message)]

def readKind : Reader FailureKind
  | .string s =>
    match FailureKind.all.find? (·.name = s) with
    | some kind => .ok kind
    | none => .error (.unknownVariant s (FailureKind.all.map FailureKind.name))
  | j => .error (.wrongType j "variant identifier")

/-- Reads a failure of a given kind from what is left without the kind. -/
def readOfKind (kind : FailureKind) : Reader Failure := fun j => do
  let texts ← readStrings
    ⟨"struct variant AppError::" ++ kind.variant, elements 2 ++ " in sequence"⟩
    ["code", "message"] j
  return { kind
           code := ← required "code" (texts.lookup "code")
           message := ← required "message" (texts.lookup "message") }

/-- Reads a failure; its kind is read before all else. -/
def ofJson : Reader Failure
  | .object members => do
    let kind ← required "type" (members.lookup "type") >>= readKind
    readOfKind kind (.object members)
  | .array [] => .error (.missing "type")
  | .array (x :: xs) => do readOfKind (← readKind x) (.array xs)
  | j => .error (.wrongType j "internally tagged enum AppError")

end Failure

end QueryStats
