import SchemaTypes.Command.Arguments
import SchemaTypes.DocTable.Directory
import SchemaTypes.Generation
import SchemaTypes.Json.Parser
import SchemaTypes.Schema.Loader

/-!
# Execution of the command

The command as a function: from the files that are there and the arguments to the files afterwards,
what is written to the terminal, and the exit code. Nothing but the log file is written before the
whole generated file is there, and that is written also when there are issues.

The log file is opened first and grows while the command works. When it is among the files of the
documentation, it is read as it is by then.
-/

namespace SchemaTypes.Command

/-- What ends the command without a message of its own. -/
inductive Fault where
  /-- A file is no JSON text. -/
  | json (cause : Json.ParseError)
  /-- A value has an unexpected type. -/
  | mismatch (cause : Mismatch)
  /-- A path cannot be used. -/
  | path (cause : FileTree.PathError)

/-- What ends generation ends the command. -/
def Fault.ofGeneration : Generation.Fault → Fault
  | .mismatch cause => mismatch cause
  | .path cause => path cause

/-- How the command ends early. -/
inductive Ending where
  /-- With a message. -/
  | message (text : String)
  /-- With a fault that nothing handles. -/
  | fault (cause : Fault)

/-- What the command leaves behind. -/
structure Outcome where
  exitCode : Nat
  /-- Records, of which the terminal shows those that are serious enough. -/
  log : List Log.Record
  /-- Whether the terminal shows all records. -/
  verbose : Bool
  stdout : String
  /-- What follows the records on the error output. -/
  message : String
  fault : Option Fault
  files : FileTree

/-- A record as the terminal shows it. -/
def terminalLine (r : Log.Record) : String :=
  "[openapi_to_code] " ++ r.level.name ++ " " ++ r.message ++ "\n"

/-- The level of the least serious records that are shown and put into the log file. -/
def shownLevel (verbose : Bool) : Log.Level := if verbose then .debug else .info

/-- What is written to the error output. -/
def Outcome.stderr (o : Outcome) : String :=
  String.join ((Log.atLeast (shownLevel o.verbose) o.log).map terminalLine) ++ o.message

/-! ## Steps -/

/-- A step of the command: it adds to the log, and may end the command. -/
abbrev Step := ExceptT Ending (StateM (List Log.Record))

/-- Adds records to the log. -/
def Step.note (records : List Log.Record) : Step Unit := modify (· ++ records)

/-- Ends the command if a value is missing. -/
def Step.orFault {ε α : Type} (fault : ε → Fault) : Except ε α → Step α
  | .ok a => pure a
  | .error e => throw (.fault (fault e))

/-- The JSON value of a file. -/
def readJson (tree : FileTree) (path : List String) : Step Json := do
  Step.orFault .json (Json.parse (← Step.orFault .path (tree.read path)))

/-- The configuration of the command: its file, and the options that go before it. -/
def readConfig (tree : FileTree) (a : Arguments) : Step Config := do
  let config ← match a.config with
    | some path => do Step.orFault .mismatch (Config.read (← readJson tree path))
    | none => pure .default
  let config := match a.package with
    | some package => config.set .packageName (.text package)
    | none => config
  return if a.workers = 0 then config else config.set .maxWorkers (.int a.workers)

/-- The documentation tables of a directory of markdown or a file of tables. -/
def readTables (tree : FileTree) (journal : Option Log.Journal) (path : List String) :
    Step (List DocTable) := do
  if tree.isDirectory path then
    let before ← get
    let (records, tables) := DocTable.scrapeDirectory (tree.below path) fun file records ↦
      Log.added journal (path ++ file) (before ++ records)
    Step.note records
    match tables with
    | .ok tables => return tables
    | .error (.noSection e) => throw (.message e.message)
    | .error (.isDirectory _) => throw (.fault (.path .isDirectory))
  else Step.orFault .mismatch (DocTable.listOfJson (← readJson tree path))

/-- Reads everything and generates the file: its text and the issues met. -/
def generate (tree : FileTree) (journal : Option Log.Journal) (processors : Nat) (a : Arguments) :
    Step (String × Issues) := do
  let some path := a.path | throw (.fault (.mismatch (.notText .null)))
  let value ← readJson tree path
  let config ← readConfig tree a
  let document ← match Document.load value with
    | .ok document => pure document
    | .error (.mismatch m) => throw (.fault (.mismatch m))
    | .error e => throw (.message e.message)
  let tables ← match a.docs with
    | some path => readTables tree journal path
    | none => pure []
  -- Tables are only given to be used, whatever the configuration says about comments.
  let config ← if tables.isEmpty then pure config
    else do
      Step.note [⟨.info, .commandLine,
        "loaded " ++ toString tables.length ++ " documentation tables"⟩]
      pure (config.set .docComments (.bool true))
  let options ← Step.orFault .mismatch config.options
  let env ← Step.orFault .mismatch (Generation.environment document options tables)
  let (code, run) := Generation.generate env (a.commandLine tree) (config.workers processors)
  Step.note run.log
  return (← Step.orFault .ofGeneration code, run.issues)

/-- Opens the log file, if one is given, at the time at which the command starts. -/
def openLog (tree : FileTree) (time : String) (a : Arguments) :
    Except FileTree.PathError (Option Log.Journal) :=
  match a.logFile with
  | none => .ok none
  | some "" => .ok none
  | some path => do
    let place ← tree.checkFile (← tree.locateNames (FileTree.resolve path))
    return some ⟨place, shownLevel a.verbose, time⟩

/-- A tree whose log file has taken in the records of a run. It is there even without records. -/
def journalled (tree : FileTree) (journal : Option Log.Journal) (log : List Log.Record) :
    FileTree :=
  match journal with
  | some j => tree.append j.place (j.text log)
  | none => tree

/-! ## The whole -/

/-- The outcome of an early end. -/
def Outcome.ended (files : FileTree) (verbose : Bool) (log : List Log.Record) : Ending → Outcome
  | .message text => ⟨1, log, verbose, "", errorLines text, none, files⟩
  | .fault cause => ⟨1, log, verbose, "", "", some cause, files⟩

/-- The outcome of a generated file, which is written to the terminal or to its place. -/
def Outcome.written (files : FileTree) (a : Arguments) (log : List Log.Record) (code : String)
    (issues : Issues) : Outcome :=
  let exitCode := if issues.isEmpty then 0 else 1
  let message := if issues.isEmpty then "" else errorLines issues.failureText
  if a.output = "-" then ⟨exitCode, log, a.verbose, code, message, none, files⟩
  else match files.target a.output with
    | .ok place => ⟨exitCode, log, a.verbose, "", message, none, files.write place code⟩
    | .error e => .ended files a.verbose log (.fault (.path e))

/-- Runs the command at a time, which is given in the words that the log file has for it. -/
def execute (files : FileTree) (processors : Nat) (time : String) (arguments : List String) :
    Outcome :=
  match Arguments.read files arguments with
  | .error (.usage e) => ⟨2, [], false, "", e.text, none, files⟩
  | .error (.path e) => .ended files false [] (.fault (.path e))
  | .ok a =>
    match openLog files time a with
    | .error e => .ended files a.verbose [] (.fault (.path e))
    | .ok journal =>
      match (generate (journalled files journal []) journal processors a).run.run [] with
      | (.error ending, log) => .ended (journalled files journal log) a.verbose log ending
      | (.ok (code, issues), log) => .written (journalled files journal log) a log code issues

end SchemaTypes.Command
