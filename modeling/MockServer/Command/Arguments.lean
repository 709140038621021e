import MockServer.Command.LogFilter
import MockServer.Server.Basic

/-!
# Command lines

The arguments of the program: a command with its options. An option has a long name, at most one
short one, and a value that follows it or is joined to it. `Command.parse` gives the command, or
the first fault of the arguments.
-/

namespace MockServer.Command

/-- What ends the reading of arguments. -/
inductive Fault where
  | help
  | version
  | unknownArgument
  | unknownCommand
  /-- A value that is missing or not among those an option takes. -/
  | badValue
  /-- A value that does not read as what an option takes. -/
  | malformedValue
  | unexpectedValue
  /-- Options that do not go together, or one that is given twice. -/
  | conflict
  | missingArgument
  deriving DecidableEq, Repr

/-! ### Options -/

/-- An option: its names, and for one with a value the check of that. -/
structure OptionSpec where
  long : String
  short : Option Char
  check : Option (String → Option Fault)

/-- A flag. -/
def OptionSpec.flag (long : String) : OptionSpec :=
  ⟨long, none, none⟩

/-- An option with any text as its value. -/
def OptionSpec.text (long : String) : OptionSpec :=
  ⟨long, none, some fun _ ↦ none⟩

/-- An option whose value has to read as something. -/
def OptionSpec.reading {α : Type} (long : String) (short : Option Char)
    (read : String → Option α) : OptionSpec :=
  ⟨long, short, some fun v ↦ if (read v).isSome then none else some .malformedValue⟩

/-- The options and the other arguments that were found. -/
structure Found where
  options : List (String × String)
  others : List String

/-- What a command takes. -/
structure Shape where
  options : List OptionSpec
  /-- The number of other arguments. -/
  others : Nat

namespace Found

/-- Adds an option; it may be there once. -/
def addOption (f : Found) (o : OptionSpec) (value : String) : Except Fault Found :=
  if f.options.any (·.1 == o.long) then .error .conflict
  else
    match o.check.bind (· value) with
    | some fault => .error fault
    | none => .ok { f with options := f.options ++ [(o.long, value)] }

/-- Adds an argument that is no option. -/
def addOther (f : Found) (shape : Shape) (value : String) : Except Fault Found :=
  if f.others.length < shape.others then .ok { f with others := f.others ++ [value] }
  else .error .unknownArgument

/-- The value of an option. -/
def value? (f : Found) (name : String) : Option String :=
  f.options.lookup name

/-- Whether a flag is given. -/
def has (f : Found) (name : String) : Bool :=
  (f.value? name).isSome

end Found

/-- Whether an argument is one or more options. -/
def isOptionLike (arg : String) : Bool :=
  match arg.toList with
  | '-' :: _ :: _ => true
  | _ => false

/-- What an option that starts an argument means for the one before it, which lacks its value. -/
def pendingFault (shape : Shape) (arg : String) : Fault :=
  let known :=
    match arg.toList with
    | ['-', '-'] => true
    | '-' :: '-' :: name =>
      let name := String.ofList (name.takeWhile (· ≠ '='))
      name = "help" || name = "version" || shape.options.any (·.long == name)
    | '-' :: c :: _ => c = 'h' || c = 'V' || shape.options.any (·.short == some c)
    | _ => true
  if known then .badValue else .unknownArgument

/-- A long option with the value that is joined to it. -/
def splitLong (name : List Char) : String × Option String :=
  match Text.cut? ['='] name with
  | some (name, value) => (String.ofList name, some (String.ofList value))
  | none => (String.ofList name, none)

/-- What an argument turns out to be. -/
inductive Reading where
  /-- An argument that is no option, or an option with its value. -/
  | done (f : Found)
  /-- An option whose value is the next argument. -/
  | awaits (o : OptionSpec)

/-- Reads an argument that starts with two dashes. -/
def readLong (shape : Shape) (text : List Char) (f : Found) : Except Fault Reading :=
  let (name, joined) := splitLong text
  if name = "help" || name = "version" then
    .error (if joined.isSome then .unexpectedValue
      else if name = "help" then .help else .version)
  else
    match shape.options.find? (·.long == name) with
    | none => .error .unknownArgument
    | some o =>
      match o.check, joined with
      | some _, some v => (f.addOption o v).map .done
      | some _, none => .ok (.awaits o)
      | none, some _ => .error .unexpectedValue
      | none, none => (f.addOption o "").map .done

/-- Reads an argument that starts with one dash. -/
def readShort (shape : Shape) (c : Char) (text : List Char) (f : Found) : Except Fault Reading :=
  if c = 'h' then .error .help
  else if c = 'V' then .error .version
  else
    match shape.options.find? (·.short == some c) with
    | none => .error .unknownArgument
    | some o =>
      if text.isEmpty then .ok (.awaits o)
      else
        let value := if text.head? = some '=' then text.drop 1 else text
        (f.addOption o (String.ofList value)).map .done

/-- Reads an argument. -/
def readArgument (shape : Shape) (arg : String) (f : Found) : Except Fault Reading :=
  match arg.toList with
  | '-' :: '-' :: text => readLong shape text f
  | '-' :: c :: text => readShort shape c text f
  | _ => (f.addOther shape arg).map .done

/-- Reads the arguments of a command, after an option that may await its value. -/
def collect (shape : Shape) : Option OptionSpec → List String → Found → Except Fault Found
  | none, [], f => .ok f
  | some _, [], _ => .error .badValue
  | some o, arg :: rest, f =>
    if isOptionLike arg then .error (pendingFault shape arg)
    else do collect shape none rest (← f.addOption o arg)
  | none, "--" :: rest, f => rest.foldlM (fun f v ↦ f.addOther shape v) f
  | none, arg :: rest, f => do
    match ← readArgument shape arg f with
    | .done f => collect shape none rest f
    | .awaits o => collect shape (some o) rest f

/-! ### Commands -/

/-- What a server is run with. -/
structure RunOptions where
  server : Server.Options
  store : Option String
  noSeed : Bool
  logLevel : LogLevel
  pretty : Bool
  json : Bool
  deriving DecidableEq, Repr

/-- The form of a report. -/
inductive ReportFormat where
  | text
  | json
  deriving DecidableEq, Repr

/-- The name of a form. -/
def ReportFormat.name : ReportFormat → String
  | .text => "text"
  | .json => "json"

/-- A form by name. -/
def ReportFormat.ofName? (name : String) : Option ReportFormat :=
  [ReportFormat.text, .json].find? (·.name == name)

end MockServer.Command

namespace MockServer

/-- What the program is asked to do. -/
inductive Command where
  /-- Start a server. -/
  | run (o : Command.RunOptions)
  /-- Check a file of definitions. -/
  | validate (file : String) (format : Command.ReportFormat)
  /-- Ask a running server how it is doing. -/
  | health (url : String) (json : Bool)
  deriving DecidableEq, Repr

namespace Command

/-- The user and the password of a text `user:password`. -/
def credentials? (s : String) : Option (String × String) :=
  (Text.cutString? ":" s).filter fun (user, _) ↦ !user.isEmpty

/-- An option whose value is the path of a file. -/
def pathOption (long : String) (short : Option Char) : OptionSpec :=
  ⟨long, short, some fun v ↦ if v.isEmpty then some .badValue else none⟩

/-- An option whose value is one of a few names. -/
def choiceOption {α : Type} (long : String) (short : Option Char) (choose : String → Option α) :
    OptionSpec :=
  ⟨long, short, some fun v ↦ if (choose v).isSome then none else some .badValue⟩

/-- What `run` takes. -/
def runShape : Shape where
  options :=
    [.reading "port" (some 'p') (Numeric.nat? 16), .text "host", pathOption "store" (some 's'),
      .text "context-path", .reading "basic-auth" none credentials?, .flag "no-seed",
      choiceOption "log-level" (some 'l') LogLevel.ofName?, .flag "pretty", .flag "json",
      .reading "proxy-timeout" none (Numeric.nat? 64), .reading "max-body" none (Numeric.nat? 64),
      .reading "tee-workers" none (Numeric.nat? 64),
      .reading "broadcast-per-minute" none (Numeric.nat? 32)]
  others := 0

/-- The number that is the value of an option. -/
def numberOption (f : Found) (name : String) (default : Nat) : Nat :=
  ((f.value? name).bind (Numeric.nat? 64)).getD default

/-- The options of a server. -/
def serverOptions (f : Found) : Server.Options :=
  let d := Server.Options.default
  { host := (f.value? "host").getD d.host
    port := numberOption f "port" d.port
    contextPath := (f.value? "context-path").getD d.contextPath
    adminAuth := (f.value? "basic-auth").bind credentials?
    proxyTimeout := numberOption f "proxy-timeout" d.proxyTimeout
    maxBody := numberOption f "max-body" d.maxBody
    teeWorkers := max 1 (numberOption f "tee-workers" d.teeWorkers)
    broadcastPerMinute := numberOption f "broadcast-per-minute" d.broadcastPerMinute }

/-- The command `run`. -/
def parseRun (args : List String) : Except Fault Command := do
  let f ← collect runShape none args ⟨[], []⟩
  if f.has "json" && f.has "pretty" then throw .conflict
  return .run {
    server := serverOptions f, store := f.value? "store", noSeed := f.has "no-seed",
    logLevel := ((f.value? "log-level").bind LogLevel.ofName?).getD .info,
    pretty := f.has "pretty", json := f.has "json" }

/-- What `validate` takes. -/
def validateShape : Shape :=
  ⟨[choiceOption "format" none ReportFormat.ofName?], 1⟩

/-- The command `validate`. -/
def parseValidate (args : List String) : Except Fault Command := do
  let f ← collect validateShape none args ⟨[], []⟩
  match f.others with
  | [] => throw .missingArgument
  | file :: _ =>
    if file.isEmpty then throw .badValue
    let format := ((f.value? "format").bind ReportFormat.ofName?).getD .text
    return .validate file format

/-- What `health` takes. -/
def healthShape : Shape :=
  ⟨[.flag "json"], 1⟩

/-- The server that is asked for its health by default. -/
def defaultUrl : String := "http://localhost:5003"

/-- The command `health`. -/
def parseHealth (args : List String) : Except Fault Command := do
  let f ← collect healthShape none args ⟨[], []⟩
  return .health (f.others.headD defaultUrl) (f.has "json")

/-- The names of the commands. -/
def names : List String :=
  ["run", "validate", "health", "help"]

/-- The fault of asking for help about something. -/
def helpFault : List String → Fault
  | [] => .help
  | name :: _ => if names.contains name then .help else .unknownCommand

/-- The command of a list of arguments; there need not be one. -/
def parse : List String → Except Fault (Option Command)
  | [] => .ok none
  | "run" :: rest => (parseRun rest).map some
  | "validate" :: rest => (parseValidate rest).map some
  | "health" :: rest => (parseHealth rest).map some
  | "help" :: rest => .error (helpFault rest)
  | ["--"] => .ok none
  | "--" :: name :: _ =>
    .error (if names.contains name then .unknownArgument else .unknownCommand)
  | arg :: _ =>
    if isOptionLike arg then
      match collect ⟨[], 0⟩ none [arg] ⟨[], []⟩ with
      | .ok _ => .error .unknownArgument
      | .error fault => .error fault
    else .error .unknownCommand

end Command

end MockServer
