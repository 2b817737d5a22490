import QueryStats.Command.Run

/-!
# The command

The command with its streams.  A session reads a line at a time and writes each answer at once; what
it writes is that of `Command.session`.  The size of the terminal is not asked for, so tables have
the width they have without a terminal.
-/

namespace QueryStats.Command

def write (o : Output) : IO Unit := do
  let stdout ← IO.getStdout
  let stderr ← IO.getStderr
  stdout.putStr o.out
  stdout.flush
  stderr.putStr o.err
  stderr.flush

/-- Reads the bytes up to the end of a stream. -/
partial def readAll (stream : IO.FS.Stream) (bytes : ByteArray) : IO ByteArray := do
  let more ← stream.read 4096
  if more.isEmpty then return bytes else readAll stream (bytes ++ more)

/-- Reads the bytes up to the end of a line, which belongs to them. -/
partial def readLine (stream : IO.FS.Stream) (bytes : ByteArray) : IO ByteArray := do
  let more ← stream.read 1
  if more.isEmpty then return bytes
  else if more.toList.contains 10 then return bytes ++ more
  else readLine stream (bytes ++ more)

/-- Answers the lines of a stream until it ends or a line ends the session. -/
partial def converse (json : Bool) (stream : IO.FS.Stream) : IO Unit := do
  write { out := prompt }
  let bytes ← readLine stream .empty
  if bytes.isEmpty then return
  match decode? bytes.toList with
  | none => write { err := complaint .invalidText }
  | some line =>
    match answer? json none line with
    | none => return
    | some answer =>
      write answer
      converse json stream

def perform (o : Options) (environment : Option String) : IO UInt32 := do
  let json := wantsJson o.json environment
  let stdin ← IO.getStdin
  if o.interactive then
    write { out := banner }
    converse json stdin
    return 0
  let bytes ← if o.query.isSome then pure .empty else readAll stdin .empty
  let outcome := runWith o json none bytes.toList
  write outcome.output
  return outcome.exitCode.toUInt32

end QueryStats.Command

open QueryStats.Command in
def main (arguments : List String) : IO UInt32 := do
  let environment ← IO.getEnv "STATSCLAUSE_OUTPUT"
  match readArguments {} arguments with
  | .run o => perform o environment
  | _ =>
    let outcome := run arguments environment []
    write outcome.output
    return outcome.exitCode.toUInt32
