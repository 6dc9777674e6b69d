import SchemaTypes.FileTree
import SchemaTypes.Json.Parser
import SchemaTypes.Text.Affix
import SchemaTypes.Text.Blank
import SchemaTypes.Text.ControlSequence
import SchemaTypes.Text.Letter
import SchemaTypes.Text.Order
import SchemaTypes.Text.Quoted
import SchemaTypes.Text.Resemblance

/-!
# Arguments of the command

Arguments are first read as options and positional arguments, without regard to what they say; then
their values are checked, in the order in which the options were first given, positional arguments
last. Options may stand between positional arguments, one-letter options may be written together,
and two hyphens end the options. Of an option given twice the last value counts.
-/

namespace SchemaTypes.Command

/-- An option of the command. -/
inductive Flag where
  | package | config | docs | workers | verbose | logFile
deriving DecidableEq, Repr

namespace Flag

def all : List Flag := [package, config, docs, workers, verbose, logFile]

/-- The long name of an option. -/
def long : Flag → String
  | package => "--package"
  | config => "--config"
  | docs => "--docs"
  | workers => "--workers"
  | verbose => "--verbose"
  | logFile => "--log-file"

/-- The letter of an option, if it has one. -/
def letter? : Flag → Option Char
  | package => some 'p'
  | config => some 'c'
  | docs => some 'd'
  | workers => some 'j'
  | verbose => some 'v'
  | logFile => none

/-- Whether an option is followed by a value. -/
def takesValue : Flag → Bool
  | verbose => false
  | _ => true

/-- The names of an option, as messages give them. -/
def display (f : Flag) : String :=
  match f.letter? with
  | some c => Text.quoted f.long ++ " / " ++ Text.quoted (String.ofList ['-', c])
  | none => Text.quoted f.long

end Flag

/-- What is wrong with the arguments. -/
inductive UsageError where
  /-- There is no such option, but maybe some that it resembles. -/
  | unknownOption (name : String) (similar : List String)
  /-- The value of an option is missing. -/
  | missingValue (name : String)
  /-- An option that takes no value has one. -/
  | unexpectedValue (name : String)
  /-- The value of an option or argument cannot be used. -/
  | invalidValue (subject reason : String)
  /-- There are more positional arguments than are read. -/
  | extraArguments (arguments : List String)
deriving DecidableEq, Repr

/-- What is said about options that an unknown one may have been meant for. -/
def suggestion : List String → String
  | [] => ""
  | [name] => " Did you mean " ++ Text.quoted name ++ "?"
  | names =>
    " (Did you mean one of: " ++ ", ".intercalate ((Text.sortNames names).map Text.quoted) ++ "?)"

/-- The words for what is wrong. -/
def UsageError.message : UsageError → String
  | unknownOption name similar => "No such option " ++ Text.quoted name ++ "." ++ suggestion similar
  | missingValue name => "Option " ++ Text.quoted name ++ " requires an argument."
  | unexpectedValue name => "Option " ++ Text.quoted name ++ " does not take a value."
  | invalidValue subject reason => "Invalid value for " ++ subject ++ ": " ++ reason
  | extraArguments arguments =>
    "Got unexpected extra argument" ++ (if arguments.length = 1 then "" else "s") ++
      " (" ++ " ".intercalate arguments ++ ")"

/-- Whether a reminder of the usage stands in front of the message. -/
def UsageError.showsUsage : UsageError → Bool
  | missingValue _ => false
  | unexpectedValue _ => false
  | _ => true

/-- The reminder of the usage. -/
def usage : String :=
  "Usage: openapi_to_code [OPTIONS] [PATH] [OUTPUT]\nTry 'openapi_to_code --help' for help.\n\n"

/-- The last lines on the terminal of a command that has failed. They set no colours. -/
def errorLines (message : String) : String :=
  "Error: " ++ Text.onChars Text.withoutSequences message ++ "\n"

/-- What is written when the arguments are wrong. -/
def UsageError.text (e : UsageError) : String :=
  (if e.showsUsage then usage else "") ++ errorLines e.message

/-! ## Reading -/

/-- Options with their values, and positional arguments, each in the order in which they are given.
An option without a value has an empty one. -/
structure Given where
  options : List (Flag × String)
  positional : List String
deriving DecidableEq, Repr

/-- A positional argument in front of what has been read behind it. -/
def Given.withPositional (g : Given) (argument : String) : Given :=
  { g with positional := argument :: g.positional }

/-- What one argument says. -/
inductive Token where
  /-- It ends the options. -/
  | endOfOptions
  | positional
  /-- It holds options with their values. -/
  | options (given : List (Flag × String))
  /-- It holds options and then one, under this name, whose value is the next argument. -/
  | awaiting (given : List (Flag × String)) (f : Flag) (name : String)
  | wrong (error : UsageError)

/-- Reads letters that stand for options; the rest of the letters behind one that takes a value is
its value. -/
def letters : List Char → Token
  | [] => .options []
  | c :: rest =>
    match Flag.all.find? fun f ↦ f.letter? == some c with
    | none => .wrong (.unknownOption (String.ofList ['-', c]) [])
    | some f =>
      if f.takesValue then
        if rest.isEmpty then .awaiting [] f (String.ofList ['-', c])
        else .options [(f, String.ofList rest)]
      else
        match letters rest with
        | .options given => .options ((f, "") :: given)
        | .awaiting given g name => .awaiting ((f, "") :: given) g name
        | token => token

/-- The option that asks for help. -/
def helpOption : String := "--help"

/-- The long options, which an unknown one is compared with. -/
def longNames : List String := Flag.all.map Flag.long ++ [helpOption]

/-- Reads a long option, with its value behind an equals sign if there is one. -/
def longOption (argument : List Char) : Token :=
  let name := String.ofList (argument.takeWhile (· != '='))
  let value? := match argument.dropWhile (· != '=') with
    | _ :: value => some (String.ofList value)
    | [] => none
  match Flag.all.find? fun f ↦ f.long == name with
  | none =>
    -- Help is not given here, but it is known that it would take no value.
    if name == helpOption then
      .wrong (if value?.isSome then .unexpectedValue name else .unknownOption name [])
    else .wrong (.unknownOption name (Text.resembling name longNames))
  | some f =>
    match f.takesValue, value? with
    | true, some value => .options [(f, value)]
    | true, none => .awaiting [] f name
    | false, none => .options [(f, "")]
    | false, some _ => .wrong (.unexpectedValue name)

/-- Reads one argument. -/
def token (argument : String) : Token :=
  match argument.toList with
  | ['-', '-'] => .endOfOptions
  | '-' :: '-' :: rest => longOption ('-' :: '-' :: rest)
  | '-' :: c :: rest => letters (c :: rest)
  | _ => .positional

/-- Reads all arguments. -/
def scan : List String → Except UsageError Given
  | [] => .ok ⟨[], []⟩
  | argument :: rest =>
    match token argument with
    | .endOfOptions => .ok ⟨[], rest⟩
    | .positional => (·.withPositional argument) <$> scan rest
    | .options given => do
      let more ← scan rest
      return { more with options := given ++ more.options }
    | .awaiting given f name =>
      match rest with
      | [] => .error (.missingValue name)
      | value :: rest => do
        let more ← scan rest
        return { more with options := given ++ (f, value) :: more.options }
    | .wrong error => .error error

/-! ## Checking -/

/-- Decimal digits with single underscores between them, read onto `n`. -/
def integerDigits (n : Nat) : List Char → Option Nat
  | [] => none
  | [c] => (Text.decimalValue? c).map fun d ↦ 10 * n + d
  | c :: '_' :: rest => do integerDigits (10 * n + (← Text.decimalValue? c)) rest
  | c :: rest => do integerDigits (10 * n + (← Text.decimalValue? c)) rest

/-- A natural number without a sign. One with too many digits is not read; underscores are none. -/
def natural? (digits : List Char) : Option Nat :=
  if Json.Parser.integerLimit < digits.countP (· != '_') then none else integerDigits 0 digits

/-- Whether a character may stand around an integer: any blank but the separator controls. -/
def isAroundInteger (c : Char) : Bool := Text.isBlank c && !(0x1C ≤ c.toNat && c.toNat ≤ 0x1F)

/-- An integer with an optional sign, between blanks. -/
def integer? (s : String) : Option Int :=
  let behind := s.toList.dropWhile isAroundInteger
  match (behind.reverse.dropWhile isAroundInteger).reverse with
  | '-' :: digits => (natural? digits).map fun n ↦ -(n : Int)
  | '+' :: digits => (natural? digits).map fun n ↦ (n : Int)
  | digits => (natural? digits).map fun n ↦ (n : Int)

/-- Why arguments are not taken. -/
inductive Refusal where
  /-- They are wrong, and a message says why. -/
  | usage (error : UsageError)
  /-- A path among them cannot be looked up. -/
  | path (error : FileTree.PathError)
deriving DecidableEq, Repr

/-- The arguments as they are used. Paths of files that are read are resolved. -/
structure Arguments where
  package : Option String
  config : Option (List String)
  docs : Option (List String)
  workers : Int
  verbose : Bool
  logFile : Option String
  path : Option (List String)
  output : String
deriving DecidableEq, Repr

/-- Refuses a value that cannot be written down as a path. -/
def checkPathText (value : String) : Except Refusal Unit :=
  if FileTree.holdsNul value then .error (.path .holdsNul) else .ok ()

/-- The path that a value leads to, which has to exist. -/
def existing (tree : FileTree) (subject value : String) : Except Refusal (List String) := do
  checkPathText value
  let path := FileTree.resolve value
  if tree.contains path then return path
  throw (.usage (.invalidValue subject ("Path " ++ Text.quoted value ++ " does not exist.")))

/-- Takes the value of an option into the arguments. -/
def Arguments.take (a : Arguments) (tree : FileTree) (f : Flag) (value : String) :
    Except Refusal Arguments :=
  match f with
  | .package => .ok { a with package := some value }
  | .config => do return { a with config := some (← existing tree f.display value) }
  | .docs => do return { a with docs := some (← existing tree f.display value) }
  | .workers =>
    match integer? value with
    | some n => .ok { a with workers := n }
    | none => .error (.usage
        (.invalidValue f.display (Text.quoted value ++ " is not a valid integer.")))
  | .verbose => .ok { a with verbose := true }
  | .logFile => do
    checkPathText value
    if tree.isDirectoryAt value then
      throw (.usage
        (.invalidValue f.display ("File " ++ Text.quoted value ++ " is a directory.")))
    return { a with logFile := some value }

/-- Takes options in, each with its last value, in the order in which they were first given. -/
def Arguments.takeAll (a : Arguments) (tree : FileTree) (options : List (Flag × String)) :
    List Flag → Except Refusal Arguments
  | [] => .ok a
  | f :: rest => do
    let a ← match options.reverse.lookup f with
      | some value => a.take tree f value
      | none => .ok a
    a.takeAll tree options rest

/-- Reads and checks the arguments. -/
def Arguments.read (tree : FileTree) (arguments : List String) : Except Refusal Arguments := do
  let given ← (scan arguments).mapError .usage
  let a : Arguments := ⟨none, none, none, 0, false, none, none, "-"⟩
  -- The first place of an option decides when it is checked, its last one what is checked.
  let a ← a.takeAll tree given.options (given.options.map Prod.fst).eraseDups
  match given.positional with
  | [] => return a
  | path :: rest => do
    let path ← existing tree "'[PATH]'" path
    match rest with
    | [] => return { a with path := some path }
    | output :: extra => do
      checkPathText output
      unless extra.isEmpty do throw (.usage (.extraArguments extra))
      return { a with path := some path, output }

/-! ## The command line of a file -/

/-- The name under which the command is called. -/
def programName : String := "openapi_to_code"

/-- An option with its value. -/
def optionText (f : Flag) (value : String) : List String := [f.long, value]

/-- A value without the way to what it is the path of, if that exists. -/
def shortened (tree : FileTree) (value : String) : Except FileTree.PathError String := do
  return if ← tree.isThere value then FileTree.nameOf (FileTree.segments value) else value

/-- The command line that leads to a file: the name of the command, the document, and the options
that influence the file, where they are given. -/
def Arguments.commandLine (a : Arguments) (tree : FileTree) :
    Except FileTree.PathError String := do
  let package ← match a.package with
    | none | some "" => pure []
    | some value => optionText .package <$> shortened tree value
  let file (f : Flag) (path : Option (List String)) : List String := match path with
    | some path => optionText f (FileTree.nameOf path)
    | none => []
  let workers := if a.workers = 0 then [] else optionText .workers (toString a.workers)
  return " ".intercalate (programName :: (a.path.map FileTree.nameOf).toList ++ package ++
    file .config a.config ++ file .docs a.docs ++ workers)

end SchemaTypes.Command
