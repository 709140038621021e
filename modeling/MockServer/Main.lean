import MockServer.Command.Report
import Std.Time.DateTime.Timestamp

/-!
# The program

Reads the arguments and the file that a command is about, and prints the report of the command.
The program opens no connections: `run` makes a server ready and writes its store, and every
request to another server is refused.
-/

open MockServer MockServer.Command

/-- The version of the program. -/
def programVersion : String := "0.1.0"

/-- The text of a file, where there is one. -/
def readIfThere (path : String) : IO (Except Failure (Option String)) := do
  try
    return .ok (some (← IO.FS.readFile path))
  catch e =>
    match e with
    | .noFileOrDirectory .. => return .ok none
    | e => return .error (.system (toString e))

/-- The time of the clock. -/
def clock : IO Time.Instant := do
  return (← Std.Time.Timestamp.now).toNanosecondsSinceUnixEpoch.toInt

/-- Prints a report, and gives the code to end with. -/
def printReport (r : Report) : IO UInt32 := do
  IO.print r.out
  IO.eprint r.err
  return UInt32.ofNat r.code

/-- Writes what a store leaves in its file. -/
def writeStore (s : Store) : IO Unit := do
  match s with
  | .file f =>
    match f.file.text with
    | some text => IO.FS.writeFile f.file.path text
    | none => return ()
  | _ => return ()

/-- Makes a server ready, and writes its store. -/
def startServer (o : RunOptions) : IO Report := do
  let now ← clock
  let place : Except Failure (Option Store.Place) ←
    match o.store with
    | none => pure (.ok none)
    | some path => do
      let text ← readIfThere path
      pure (text.map fun text ↦ some { path, text, table := none, writable := true })
  match place.bind fun place ↦ (start now o place).value with
  | .error e => return .failed e "" ""
  | .ok server =>
    writeStore server.service.store
    let snapshot := server.service.routes.current
    let count := toString snapshot.entries.length
    return ⟨0, lines ["livemock is ready: " ++ count ++ " endpoints, version " ++
      snapshot.shortVersion], ""⟩

/-- The report of a command. -/
def reportOf : Option Command → IO Report
  | none => return welcome programVersion
  | some (.run o) => startServer o
  | some (.validate file format) => do
    match ← readIfThere file with
    | .error e => return .failed e "" ""
    | .ok text => return validateReport file text format
  | some (.health url json) => return healthReport (fun _ ↦ .error .refused) url json

/-- The report of arguments that are no command. -/
def faultReport : Fault → Report
  | .help => ⟨0, lines ["Usage: livemock [run | validate <FILE> | health [URL]] [OPTIONS]"], ""⟩
  | .version => ⟨0, lines ["livemock " ++ programVersion], ""⟩
  | _ => ⟨2, "", lines ["error: invalid arguments, see 'livemock --help'"]⟩

/-- Runs the program. -/
def main (args : List String) : IO UInt32 := do
  match Command.parse args with
  | .error fault => printReport (faultReport fault)
  | .ok command => printReport (← reportOf command)
