import GuardedQuery.Command.Basic
import Std.Time.DateTime.Timestamp

/-!
# The program

Reads the texts that a command works on, and writes what has become of it: the log, with the lines about
failures on the output for errors, the audit records at the end of their file, and the outcome. The program
measures no times, and writes every elapsed time as zero.
-/

namespace GuardedQuery.Program

/-- What the program can do. -/
def usage : String :=
  "\n".intercalate
    ["aeroquery - Whitelisted, projection-first query execution",
     "",
     "Usage: aeroquery <COMMAND>",
     "",
     "Commands:",
     "  check-config  Load a policy file and print its entities and limits",
     "                [--config <CONFIG>] [--data <DATA>]",
     "  validate      Validate a query read from stdin without executing it",
     "                [--config <CONFIG>]",
     "  run           Execute a query read from stdin and print one page",
     "                [--config <CONFIG>] --data <DATA> [--audit-log <AUDIT_LOG>]",
     "  help          Print this message",
     "",
     "Options:",
     "  -h, --help     Print help",
     "  -V, --version  Print version"]

/-- The version of the program. -/
def version : String := "aeroquery 0.1.0"

/-- The text of a file, or why it cannot be read. -/
def readText (path : String) : IO (Except String String) := do
  try return .ok (← IO.FS.readFile path)
  catch e => return .error (toString e)

/-- All bytes up to the end of a stream. -/
partial def readBytes (stream : IO.FS.Stream) (before : ByteArray) : IO ByteArray := do
  let part ← stream.read 65536
  if part.isEmpty then return before else readBytes stream (before ++ part)

/-- The text on the standard input, or why it cannot be read. -/
def readInput : IO (Except String String) := do
  try
    match String.fromUTF8? (← readBytes (← IO.getStdin) .empty) with
    | some text => return .ok text
    | none => return .error "stream did not contain valid UTF-8"
  catch e => return .error (toString e)

/-- A new random identity, with the marks of a random one, at the present time. -/
def newStamp : IO AuditStamp := do
  let bytes ← IO.getRandomBytes 16
  let n := bytes.foldl (fun n b => 256 * n + b.toNat) 0
  let low := n % (1 <<< 62) + (1 <<< 63)
  let high := ((n >>> 80) <<< 16) + (4 <<< 12) + (n >>> 64) % (1 <<< 12)
  let now ← Std.Time.Timestamp.now
  let nanos := now.toNanosecondsSinceUnixEpoch.val
  return { id := ⟨(high <<< 64) + low⟩, time := ⟨nanos / 1000000000, (nanos % 1000000000).toNat⟩ }

/-- Opens the file of audit records, so that it is there even if no record is made; gives the reason if it
cannot be opened. -/
def openTrail (path : String) : IO (Option String) := do
  try
    discard (IO.FS.Handle.mk path .append)
    return none
  catch e => return some (toString e)

/-- What a command works on. -/
def gather : Command → IO Inputs
  | .checkConfig config data => do
    let policy ← readText config
    match data with
    | some path => return { policy, data := ← readText path }
    | none => return { policy }
  | .validate config => return { policy := ← readText config, query := ← readInput }
  | .run config data auditLog => do
    let policy ← readText config
    let store ← readText data
    let auditFault ← match auditLog with
      | some path => openTrail path
      | none => pure none
    return { policy, data := store, query := ← readInput, auditFault, circumstances := { stamp := ← newStamp } }

/-- Writes a line of the log. -/
def writeLine (l : LogLine) : IO Unit := do
  let stream ← if l.severity.isUrgent then IO.getStderr else IO.getStdout
  stream.putStr l.output

/-- Writes an audit record at the end of its file. -/
def writeRecord (path : String) (r : AuditRecord) : IO Unit := do
  try
    let handle ← IO.FS.Handle.mk path .append
    handle.putStrLn r.toText
  catch e => writeLine (Engine.lostLine r (toString e))

/-- Where the audit records of a command go. -/
def trailPath? : Command → Option String
  | .run _ _ auditLog => auditLog
  | _ => none

/-- Carries out a command. -/
def perform (c : Command) : IO UInt32 := do
  let (outcome, transcript) := c.perform (← gather c) {}
  transcript.log.forM writeLine
  if let some path := trailPath? c then transcript.audit.forM (writeRecord path)
  match outcome with
  | .ok data =>
    IO.println (Command.responseLine data)
    return 0
  | .error e =>
    IO.eprintln e.line
    return 1

end GuardedQuery.Program

/-- Does what the words of the command line ask for. -/
def main (args : List String) : IO UInt32 := do
  match GuardedQuery.Request.ofWords args with
  | .ok (.command c) => GuardedQuery.Program.perform c
  | .ok .help =>
    IO.println GuardedQuery.Program.usage
    return 0
  | .ok .version =>
    IO.println GuardedQuery.Program.version
    return 0
  | .error .missingCommand =>
    IO.eprintln GuardedQuery.Program.usage
    return 2
  | .error e =>
    IO.eprintln s!"error: {e.message}"
    return 2
