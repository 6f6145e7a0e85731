import InfoFlow.Report.Json
import InfoFlow.Tool

/-!
# The command line

`[--config FILE] replay [OPTIONS] TRACE` replays a trace and `[--config FILE]
config` shows the settings in force. Arguments are read from left to right;
`Arguments` is what has been read so far.

Options and operands may be mixed. A long option takes its value after an
equals sign or from the next argument, a short one also without the sign; short
options may stand together behind one dash. After `--` everything is an
operand. No option may be given twice at one place, but `--config` may stand
both before and after the name of the command; the latter counts.
-/

namespace InfoFlow

/-! ## Options -/

inductive CommandOption where
  | config
  | lattice
  | keepGoing
  | json
  | version
deriving DecidableEq, Repr

inductive Command where
  | replay
  | config
deriving DecidableEq, Repr

namespace Command

def ofName? : String → Option Command
  | "replay" => some replay
  | "config" => some config
  | _ => none

/-- The long options of a command; without one, those of the program. -/
def longOptions : Option Command → List (String × CommandOption)
  | none => [("config", .config), ("version", .version)]
  | some replay =>
      [("config", .config), ("lattice", .lattice), ("keep-going", .keepGoing), ("json", .json)]
  | some config => [("config", .config)]

/-- The short options of a command; without one, those of the program. -/
def shortOptions : Option Command → List (Char × CommandOption)
  | none => [('V', .version)]
  | some replay => [('l', .lattice), ('k', .keepGoing)]
  | some config => []

end Command

def CommandOption.takesValue : CommandOption → Bool
  | config | lattice => true
  | keepGoing | json | version => false

/-- Whether an argument is an option, or the mark that ends the options. -/
def looksLikeOption (argument : String) : Bool :=
  match argument.toList with
  | ['-'] => false
  | '-' :: _ => true
  | _ => false

/-! ## Arguments read so far -/

/-- What the arguments read so far ask for. -/
structure Arguments where
  command : Option Command := none
  /-- `--config` before the name of the command. -/
  programConfig : Option String := none
  /-- `--config` after the name of the command. -/
  commandConfig : Option String := none
  options : ReplayOptions := {}
  trace : Option String := none
  /-- An option whose value must come next. -/
  pending : Option CommandOption := none
  /-- All that follows are operands. -/
  onlyOperands : Bool := false
deriving DecidableEq, Repr

namespace Arguments

/-- Set a configuration file, once before and once after the command. -/
def setConfig? (a : Arguments) (path : String) : Option Arguments :=
  if path = "" then none
  else match a.command, a.programConfig, a.commandConfig with
    | none, none, _ => some { a with programConfig := some path }
    | some _, _, none => some { a with commandConfig := some path }
    | _, _, _ => none

def setLattice? (a : Arguments) (name : String) : Option Arguments :=
  match a.options.lattice, Chain.ofName? name with
  | none, some kind => some { a with options := { a.options with lattice := some kind } }
  | _, _ => none

def setKeepGoing? (a : Arguments) : Option Arguments :=
  if a.options.keepGoing then none
  else some { a with options := { a.options with keepGoing := true } }

def setJson? (a : Arguments) : Option Arguments :=
  if a.options.json then none
  else some { a with options := { a.options with json := true } }

/-- Give an option its value. -/
def setValue? (a : Arguments) (option : CommandOption) (value : String) : Option Arguments :=
  match option with
  | .config => a.setConfig? value
  | .lattice => a.setLattice? value
  | .keepGoing | .json | .version => none

/-- Read an operand: the name of the command, or the trace of a replay. -/
def addOperand? (a : Arguments) (argument : String) : Option Arguments :=
  match a.command with
  | none =>
      if a.onlyOperands then none
      else (Command.ofName? argument).map fun command => { a with command := some command }
  | some .replay =>
      if a.trace.isSome ∨ argument = "" then none else some { a with trace := some argument }
  | some .config => none

/-- Read an option that is given without a value: a flag, or one whose value
comes next. -/
def setFlag? (a : Arguments) (option : CommandOption) : Option Arguments :=
  match option with
  | .config | .lattice => some { a with pending := some option }
  | .keepGoing => a.setKeepGoing?
  | .json => a.setJson?
  | .version => none

end Arguments

/-- What reading has come to: it goes on, or the version was asked for, which
ends it. -/
inductive ArgumentReader where
  | reading (arguments : Arguments)
  | version

namespace ArgumentReader

/-- Read a long option, from the character after the two dashes. -/
def longOption? (a : Arguments) (text : List Char) : Option ArgumentReader := do
  let name := text.takeWhile (· ≠ '=')
  let option ← (Command.longOptions a.command).lookup (String.ofList name)
  match text.drop name.length with
  | _ :: value => return reading (← a.setValue? option (String.ofList value))
  | [] => if option = .version then return version else return reading (← a.setFlag? option)

/-- Read short options, from the character after the dash. -/
def shortOptions? (a : Arguments) : List Char → Option ArgumentReader
  | [] => some (reading a)
  | c :: rest => do
      let option ← (Command.shortOptions a.command).lookup c
      if option = .version then return version
      else if option.takesValue then
        match rest with
        | [] => return reading (← a.setFlag? option)
        | '=' :: value => return reading (← a.setValue? option (String.ofList value))
        | value => return reading (← a.setValue? option (String.ofList value))
      else shortOptions? (← a.setFlag? option) rest

/-- Read one argument. -/
def next? (reader : ArgumentReader) (argument : String) : Option ArgumentReader :=
  match reader with
  | version => some version
  | reading a =>
      match a.pending with
      | some option =>
          if looksLikeOption argument then none
          else ({ a with pending := none }.setValue? option argument).map reading
      | none =>
          if a.onlyOperands || !looksLikeOption argument then (a.addOperand? argument).map reading
          else match argument.toList.drop 1 with
            | ['-'] => some (reading { a with onlyOperands := true })
            | '-' :: text => longOption? a text
            | text => shortOptions? a text

end ArgumentReader

/-! ## Requests -/

/-- What a command line asks for. Configuration files and traces are paths. -/
inductive Request where
  | version
  | replay (config : Option String) (trace : String) (options : ReplayOptions)
  | showConfig (config : Option String)
deriving DecidableEq, Repr

/-- What complete arguments ask for. -/
def Arguments.request? (a : Arguments) : Option Request :=
  if a.pending.isSome then none
  else
    let config := a.commandConfig.or a.programConfig
    match a.command with
    | none => none
    | some .replay => a.trace.map fun trace => .replay config trace a.options
    | some .config => some (.showConfig config)

/-- What a command line asks for, if it is well formed. -/
def Request.ofArguments? (arguments : List String) : Option Request := do
  match ← arguments.foldlM ArgumentReader.next? (.reading {}) with
  | .version => some .version
  | .reading a => a.request?

/-! ## Answers -/

/-- How the program ends: its exit status, what it prints, and the fault that it
reports. -/
structure Ending where
  status : Nat
  output : String
  fault : Option ToolFault
deriving DecidableEq, Repr

namespace Ending

def success (output : String) : Ending := ⟨0, output, none⟩

def failure (fault : ToolFault) : Ending := ⟨1, "", some fault⟩

/-- The command line is not well formed. -/
def usage : Ending := ⟨2, "", none⟩

end Ending

/-- The name and version of the program. -/
def versionText : String := "flowmon 0.1.0\n"

/-- Print the report of a replay; the status says whether it is clean. -/
def Report.ending (report : Report) (json : Bool) : Ending :=
  ⟨if report.isClean then 0 else 1, report.render json, none⟩

namespace Request

/-- The configuration file that a request names. -/
def config? : Request → Option String
  | version => none
  | replay config _ _ => config
  | showConfig config => config

/-- The trace that a request names. -/
def trace? : Request → Option String
  | replay _ trace _ => some trace
  | _ => none

/-- Answer a request. `read` gives the content of the file at a path, and
`environment` is the configuration file that the environment names. -/
def answer (read : String → Option String) (environment : Option String) (request : Request) :
    Ending :=
  let source (path : String) : Source := ⟨path, read path⟩
  let settings := Settings.resolve (request.config?.map source) (environment.map source)
  match request, settings with
  | version, _ => .success versionText
  | _, .error e => .failure e
  | replay _ trace options, .ok settings =>
      match replayFile (source trace) options settings with
      | .error e => .failure e
      | .ok report => report.ending options.json
  | showConfig _, .ok settings =>
      match settings.tomlText? with
      | some text => .success text
      | none => ⟨1, "", none⟩

end Request

/-- Run the program with these arguments. -/
def runCommandLine (read : String → Option String) (environment : Option String)
    (arguments : List String) : Ending :=
  match Request.ofArguments? arguments with
  | none => .usage
  | some request => request.answer read environment

end InfoFlow
