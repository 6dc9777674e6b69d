/-!
# Log records

What a run reports while it works: a message with its level and the part of the program it comes
from. Records are kept as data in the order in which they arose.

A journal is a file that takes records in as they arise. What it has taken in is a function of the
records so far (`Journal.text_append`), so that a run which reads its own journal reads just that.
-/

namespace SchemaTypes.Log

/-- How serious a record is. -/
inductive Level where
  | debug | info | warning | error
deriving DecidableEq, Repr

/-- The rank of a level, growing with its seriousness. -/
def Level.rank : Level → Nat
  | debug => 0
  | info => 1
  | warning => 2
  | error => 3

/-- The name of a level. -/
def Level.name : Level → String
  | debug => "DEBUG"
  | info => "INFO"
  | warning => "WARNING"
  | error => "ERROR"

/-- The part of the program that a record comes from. -/
inductive Source where
  | commandLine | correlation | documentation | emission | generation | scheduling | snowflakes
  | state
deriving DecidableEq, Repr

/-- The name under which a source is known in a log. -/
def Source.name : Source → String
  | commandLine => "openapi_to_code.cli"
  | correlation => "openapi_to_code.correlator"
  | documentation => "openapi_to_code.docread"
  | emission => "openapi_to_code.emitter"
  | generation => "openapi_to_code.generator"
  | scheduling => "openapi_to_code.scheduler"
  | snowflakes => "openapi_to_code.heuristics"
  | state => "openapi_to_code.state"

/-- A record of a log. -/
structure Record where
  level : Level
  source : Source
  message : String
deriving DecidableEq, Repr

/-- The line of a record that names its source. -/
def Record.line (r : Record) : String :=
  r.level.name ++ " " ++ r.source.name ++ ": " ++ r.message

/-- The records that are at least as serious as `level`. -/
def atLeast (level : Level) (records : List Record) : List Record :=
  records.filter fun r ↦ level.rank ≤ r.level.rank

/-! ## Journals -/

/-- A file that takes in records as they arise. -/
structure Journal where
  /-- The path of the file. -/
  place : List String
  /-- The level of the least serious records that it takes in. -/
  level : Level
  /-- The time that its lines begin with. -/
  time : String
deriving DecidableEq, Repr

/-- The lines that a journal takes in for records. -/
def Journal.text (j : Journal) (records : List Record) : String :=
  String.join ((atLeast j.level records).map fun r ↦ j.time ++ " " ++ r.line ++ "\n")

/-- A journal only grows: what it takes in later stands behind what it has taken in before. -/
theorem Journal.text_append (j : Journal) (earlier later : List Record) :
    j.text (earlier ++ later) = j.text earlier ++ j.text later := by
  simp [Journal.text, atLeast]

/-- What a run with these records has added to the file at a path. -/
def added (journal : Option Journal) (path : List String) (records : List Record) : String :=
  match journal with
  | some j => if j.place = path then j.text records else ""
  | none => ""

/-- Without records nothing is added. -/
theorem added_nil (journal : Option Journal) (path : List String) :
    added journal path [] = "" := by
  cases journal with
  | none => rfl
  | some j => simp [added, Journal.text, atLeast]

end SchemaTypes.Log
