import QueryStats.Command.Output

/-!
# Interactive sessions

In a session each line is a query, and its clause is shown at once.  `exit` and `quit` end the
session and `help` tells how to use the command, in letters of either case.  Nothing is carried over
from one line to the next.
-/

namespace QueryStats.Command

/-- The upper case of a character where that consists of ASCII letters only; any other character
stands for itself. -/
def upperChar (c : Char) : List Char :=
  match c with
  | 'ı' => ['I']
  | 'ſ' => ['S']
  | 'ß' => ['S', 'S']
  | 'ﬀ' => ['F', 'F']
  | 'ﬁ' => ['F', 'I']
  | 'ﬂ' => ['F', 'L']
  | 'ﬃ' => ['F', 'F', 'I']
  | 'ﬄ' => ['F', 'F', 'L']
  | 'ﬅ' => ['S', 'T']
  | 'ﬆ' => ['S', 'T']
  | c => [c.toUpper]

/-- Whether the upper case of a text is a given word of ASCII letters. -/
def spells (word : String) (text : List Char) : Bool := text.flatMap upperChar == word.toList

/-- What a line of a session asks for. -/
inductive Request where
  | nothing
  | stop
  | help
  | query (text : String)
  deriving DecidableEq, Repr

def Request.ofLine (line : String) : Request :=
  let t := Text.trim line.toList
  if t.isEmpty then .nothing
  else if spells "EXIT" t || spells "QUIT" t then .stop
  else if spells "HELP" t then .help
  else .query (String.ofList t)

/-- The answer to a line, or `none` if it ends the session. -/
def answer? (json : Bool) (columns : Option Nat) (line : String) : Option Output :=
  match Request.ofLine line with
  | .nothing => some {}
  | .stop => none
  | .help => some { err := usage }
  | .query text => some { out := showQuery json columns text }

/-- The first line of a session. -/
def banner : String := "statsclause interpreter. Type 'help' for commands.\n"

/-- What is written before a line is read. -/
def prompt : String := "> "

/-- What a session writes after its banner.  A line is `none` if it is not valid UTF-8; such a line
ends the session. -/
def dialogue (json : Bool) (columns : Option Nat) : List (Option String) → Output
  | [] => { out := prompt }
  | none :: _ => { out := prompt, err := complaint .invalidText }
  | some line :: lines =>
    match answer? json columns line with
    | none => { out := prompt }
    | some answer => { out := prompt } ++ answer ++ dialogue json columns lines

def session (json : Bool) (columns : Option Nat) (lines : List (Option String)) : Output :=
  { out := banner } ++ dialogue json columns lines

end QueryStats.Command
