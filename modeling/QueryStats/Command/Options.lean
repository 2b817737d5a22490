import QueryStats.Text.Keyword

/-!
# Command line arguments

The arguments are read from left to right.  An option sets a mode or, with the argument after it,
the query; an argument that is no option is the query too, as long as there is none yet and it does
not start with two dashes.  Asking for help ends the reading.
-/

namespace QueryStats.Command

/-- What the arguments ask for. -/
structure Options where
  query : Option String := none
  interactive : Bool := false
  /-- Whether clauses are printed as JSON. -/
  json : Bool := false
  deriving DecidableEq, Repr, Inhabited

/-- What is wrong with the arguments. -/
inductive ArgumentError where
  /-- The query is missing after the option for it. -/
  | missingQuery
  /-- An argument has no meaning where it stands. -/
  | unrecognized (argument : String)
  deriving DecidableEq, Repr

/-- What is wrong with the arguments, as told to the user. -/
def ArgumentError.message : ArgumentError → String
  | missingQuery => "--query requires a value"
  | unrecognized argument => "Unrecognized argument: " ++ argument

/-- What the arguments come to. -/
inductive Invocation where
  | run (options : Options)
  | help
  | invalid (error : ArgumentError)
  deriving DecidableEq, Repr

/-- Reads arguments after some that came to the given options. -/
def readArguments (o : Options) : List String → Invocation
  | [] => .run o
  | a :: rest =>
    if a = "--query" || a = "-q" then
      match rest with
      | [] => .invalid .missingQuery
      | value :: rest => readArguments { o with query := some value } rest
    else if a = "--repl" then readArguments { o with interactive := true } rest
    else if a = "--json" then readArguments { o with json := true } rest
    else if a = "-h" || a = "--help" then .help
    else if o.query.isNone && !"--".toList.isPrefixOf a.toList then
      readArguments { o with query := some a } rest
    else .invalid (.unrecognized a)

/-- Whether clauses are printed as JSON: if an option says so, or else the environment. -/
def wantsJson (option : Bool) (environment : Option String) : Bool :=
  option || environment.any fun value => Text.eqIgnoreCase value.toList "json".toList

end QueryStats.Command
