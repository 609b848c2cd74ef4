import Provisioner.Session.Bootstrap
import Provisioner.Store.Fault

/-!
# The command line

One run of the bootstrap. Settings come from the environment and from an environment file on the
standard input. The store is one in memory, which starts empty and whose clock stands still, so
a run shows what would be done for a new installation: the confirmation goes to the standard
output, the records go to the standard error, and the status says how it ended.
-/

namespace Provisioner

namespace CommandLine

/-- The time of all records. -/
def clock : String := "1970-01-01 00:00:00"

/-- The names under which settings are looked for in the environment of the process, which can
only be asked for one name at a time. -/
def names : List String :=
  Settings.Field.all.flatMap fun f => [f.name, Text.upper f.name]

/-- The names to which an environment file may refer. -/
def referredNames (text : String) : List String :=
  ((text.splitOn "$\x7b").drop 1).map fun piece =>
    String.ofList (piece.toList.takeWhile fun c => c ≠ '\x7d' && c ≠ ':')

/-- The variables of the process that bear one of the names. -/
def environment (names : List String) : IO (Assoc String) := do
  let found ← names.mapM fun name => do
    let value ← IO.getEnv name
    return value.map fun value => (name, value)
  return Assoc.ofList (found.filterMap id)

/-- Everything that a stream still has. -/
partial def readAll (stream : IO.FS.Stream) (text : String) : IO String := do
  let line ← stream.getLine
  if line.isEmpty then return text else readAll stream (text ++ line)

/-- A server without contents and without faults. -/
def newServer : FaultyServer := { server := { store := [], clients := 0 }, faults := [] }

/-- Show what a run has left, and end with its status; a run that was called off has none. -/
def report (outcome : Except Error Nat) (session : Session) (trace : List Event) : IO UInt32 := do
  IO.print (String.join ((Event.lines trace).map (· ++ "\n")))
  IO.eprint (Log.shown session.threshold clock (Event.records trace))
  match outcome with
  | .ok status => return status.toUInt32
  | .error e =>
    IO.eprintln e.message
    return Session.failure.toUInt32

end CommandLine

end Provisioner

open Provisioner in
/-- Run the bootstrap once. -/
def main : IO UInt32 := do
  let envFile ← CommandLine.readAll (← IO.getStdin) ""
  let environment ← CommandLine.environment
    (CommandLine.referredNames envFile ++ CommandLine.names)
  let session := Session.start environment (some envFile)
  let ((outcome, session), trace, _) :=
    (Session.bootstrap.runIn session).run FaultyServer.answer CommandLine.newServer
  CommandLine.report outcome session trace
