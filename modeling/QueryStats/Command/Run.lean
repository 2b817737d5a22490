import QueryStats.Command.Options
import QueryStats.Command.Session

/-!
# Runs of the command

A run is determined by its arguments, the preferred output of the environment, the bytes of its
standard input and the columns of its terminal, which stay the same while it lasts.  It shows the
clause of one query, or holds a session.

This is the command as built for release and with its log turned off.  A build for debugging also
tells the width of its tables on the standard error, and the log would go there too.
-/

namespace QueryStats.Command

/-- What a run leaves behind. -/
structure Outcome where
  exitCode : Nat
  output : Output
  deriving DecidableEq, Repr, Inhabited

/-- The text that some bytes are the UTF-8 form of. -/
def decode? (bytes : List UInt8) : Option String := String.fromUTF8? ⟨bytes.toArray⟩

/-- The lines of some bytes, each with the line feed that ends it. -/
def lineBytes : List UInt8 → List (List UInt8)
  | [] => []
  | b :: bytes =>
    if b = 10 then [b] :: lineBytes bytes
    else
      match lineBytes bytes with
      | [] => [[b]]
      | line :: lines => (b :: line) :: lines

/-- The run after its arguments were found not in order. -/
def rejected (e : ArgumentError) : Outcome := ⟨2, { err := e.message ++ "\n" ++ usage }⟩

/-- The query of a text: the text without the white space around it, unless nothing is left. -/
def queryOf? (text : String) : Except Failure String :=
  match Text.trim text.toList with
  | [] => .error .emptyQuery
  | t => .ok (String.ofList t)

/-- The run that shows the clause of one query. -/
def oneShot (json : Bool) (columns : Option Nat) (text : String) : Outcome :=
  match queryOf? text with
  | .error f => ⟨f.exitCode, { err := usage ++ complaint f }⟩
  | .ok query => ⟨0, { out := showQuery json columns query }⟩

def runWith (o : Options) (json : Bool) (columns : Option Nat) (stdin : List UInt8) : Outcome :=
  if o.interactive then ⟨0, session json columns ((lineBytes stdin).map decode?)⟩
  else
    match o.query with
    | some text => oneShot json columns text
    | none =>
      match decode? stdin with
      | some text => oneShot json columns text
      | none => ⟨Failure.invalidText.exitCode, { err := complaint .invalidText }⟩

/-- The run with the given arguments, on a terminal with the given columns. -/
def run (arguments : List String) (environment : Option String) (stdin : List UInt8)
    (columns : Option Nat := none) : Outcome :=
  match readArguments {} arguments with
  | .run o => runWith o (wantsJson o.json environment) columns stdin
  | .help => ⟨0, { err := usage }⟩
  | .invalid e => rejected e

end QueryStats.Command
