/-!
# How to use the command
-/

namespace QueryStats.Command

/-- The name of the command.  The usage gives the name that the command was called by, the argument
in front of all others; this stands for it. -/
def program : String := "statsclause"

/-- The lines that tell how to use the command. -/
def usageLines : List String := [
  "Usage:",
  "  " ++ program ++ " --query \"<QUERY>\" [--json]",
  "  " ++ program ++ " -q \"<QUERY>\" [--json]",
  "  " ++ program ++ " [--json]            # reads query text from stdin",
  "  " ++ program ++ " --repl [--json]     # start interactive interpreter",
  "",
  "Flags:",
  "  -q, --query <QUERY>      Parse a one-shot query (from arg); if omitted, reads from stdin",
  "  --json                   Print the parsed clause as JSON instead of tables",
  "  --repl                   Start interactive mode",
  "  -h, --help               Show this help",
  "",
  "Interactive commands:",
  "  help                     show this help",
  "  quit | exit              exit the interpreter",
  "  <QUERY>                  parse the line and print its stats clause",
  "",
  "Environment:",
  "  RUST_LOG                 tracing filter (default: info)",
  "  STATSCLAUSE_OUTPUT=json  always print JSON",
  "",
  "Examples:",
  "  " ++ program ++
    " -q \"select count(*), avg(bytes) as b from logs group by span(timestamp, 1h), host\"",
  "  " ++ program ++ " --json -q \"source=accounts | stats count() by gender\""]

def unlines (lines : List String) : String := String.join (lines.map (· ++ "\n"))

def usage : String := unlines usageLines

end QueryStats.Command
