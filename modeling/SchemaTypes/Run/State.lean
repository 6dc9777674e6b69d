import SchemaTypes.DocTable.Correlator
import SchemaTypes.Entries
import SchemaTypes.Log
import SchemaTypes.Run.Issue
import SchemaTypes.Text.Diff
import SchemaTypes.Text.Order

/-!
# State of a run

While schemas are emitted, a run collects the declarations hoisted out of them, the packages they
need, the issues met, what the search for tables remembers, and the log. Emission itself only tells
what happens, as a list of events; the state is what the events amount to.

The registry keeps the first text under each name. The same text again changes nothing, and another
one is a collision. Issues are all counted, but only the first ones are kept. How many that are is
configured, and what is configured may be no number: then an issue is noted and counted, but it is
also an obstacle.
-/

namespace SchemaTypes

/-- What happens to a run while a schema is emitted. -/
inductive Event where
  /-- Something is noted in the log. -/
  | note (record : Log.Record)
  /-- A declaration is hoisted out of a schema. -/
  | register (name text : String)
  /-- The name of a type is written that is declared elsewhere. A run collects nothing of this: the
  event tells what a text relies on. -/
  | mention (name : String)
  /-- A package is needed. -/
  | require (path : Json.Key)
  /-- Something is wrong with a part of the document. -/
  | report (issue : Issue)
  /-- Tables have been searched for a shape. -/
  | learn (shape : String) (candidates : List Correlator.Candidate)

/-- The issues of a run: the first ones up to a limit, and the number of all. -/
structure Issues where
  limit : Json
  kept : List Issue
  count : Nat

namespace Issues

/-- No issue yet. -/
def empty (limit : Json) : Issues := ⟨limit, [], 0⟩

/-- Whether one more issue is kept. -/
def hasRoom (i : Issues) : Except Mismatch Bool := i.limit.exceeds i.kept.length

/-- One more issue. -/
def add (i : Issues) (issue : Issue) : Issues where
  limit := i.limit
  kept := match i.hasRoom with
    | .ok true => i.kept ++ [issue]
    | _ => i.kept
  count := i.count + 1

/-- What is wrong with the limit, if one more issue cannot be compared with it. -/
def obstacle? (i : Issues) : Option Mismatch :=
  match i.hasRoom with
  | .ok _ => none
  | .error e => some e

/-- Whether there is no issue. -/
def isEmpty (i : Issues) : Bool := i.count = 0

/-- The line that a summary begins with. -/
def headline (i : Issues) : String :=
  "encountered " ++ toString i.count ++ " errors such as:"

/-- The lines of the issues that are kept. -/
def lines (i : Issues) : List String := i.kept.map fun issue ↦ "  - " ++ issue.text

/-- Number of issues and the text of those kept. -/
def summary (i : Issues) : String := "\n".intercalate (i.headline :: i.lines)

/-- The text in which a failed run is reported. -/
def failureText (i : Issues) : String := i.headline ++ "\n" ++ "\n".intercalate i.lines

end Issues

/-- What a run has collected. -/
structure Run where
  issues : Issues
  /-- Declarations by name, in the order in which the names came up. -/
  registry : List (String × String)
  /-- Needed packages, in the order in which they came up. -/
  required : List Json.Key
  /-- What the search for tables remembers. -/
  memory : Correlator.Memory
  /-- Records, in the order in which they arose. -/
  log : List Log.Record

namespace Run

/-- A run before it begins. -/
def start (limit : Json) : Run := ⟨.empty limit, [], [], [], []⟩

/-- Adds a record to the log. -/
def note (r : Run) (record : Log.Record) : Run := { r with log := r.log ++ [record] }

/-- Records an issue and notes it. -/
def report (r : Run) (issue : Issue) : Run :=
  { r.note ⟨.error, .state, "generate error occurred: " ++ issue.text⟩ with
    issues := r.issues.add issue }

/-- The record of two different texts under one name. -/
def collisionRecord (name kept discarded : String) : Log.Record :=
  ⟨.error, .state, (Issue.Cause.duplicateName name).message ++ "\n" ++
    Text.diff (name ++ " (kept)") (name ++ " (discarded)") kept discarded⟩

/-- Registers a declaration; the answer is false when the name is taken by another text. -/
def register (r : Run) (name text : String) : Bool × Run :=
  match r.registry.lookup name with
  | none => (true, { r with registry := r.registry ++ [(name, text)] })
  | some kept =>
    if kept = text then (true, r)
    else (false, (r.note (collisionRecord name kept text)).report ⟨"", .duplicateName name⟩)

/-- Takes a declaration out of the registry. -/
def discard (r : Run) (name : String) : Run :=
  { r with registry := Entries.erase name r.registry }

/-- Records that a package is needed. -/
def require (r : Run) (path : Json.Key) : Run :=
  if r.required.contains path then r else { r with required := r.required ++ [path] }

/-- Remembers the candidates for a shape. -/
def learn (r : Run) (shape : String) (candidates : List Correlator.Candidate) : Run :=
  { r with memory := (shape, candidates) :: r.memory }

/-- The state after an event. -/
def apply (r : Run) : Event → Run
  | .note record => r.note record
  | .register name text => (r.register name text).2
  | .mention _ => r
  | .require path => r.require path
  | .report issue => r.report issue
  | .learn shape candidates => r.learn shape candidates

/-- Whether an event adds an issue. -/
def addsIssue (r : Run) : Event → Bool
  | .report _ => true
  | .register name text => !(r.register name text).1
  | _ => false

/-- What stands in the way after an event: only an issue can be an obstacle. -/
def obstacle? (r : Run) (event : Event) : Option Mismatch :=
  if r.addsIssue event then r.issues.obstacle? else none

/-- The state after events in turn. -/
def applyAll (r : Run) (events : List Event) : Run := events.foldl apply r

/-- Registered declarations in the order of their names. -/
def items (r : Run) : List (String × String) := Text.sortByName r.registry

/-- Names of the registered declarations, in order. -/
def names (r : Run) : List String := Text.sortNames (Entries.names r.registry)

/-- Needed packages in order; only texts have one. -/
def imports (r : Run) : Except Mismatch (List Json.Key) :=
  match r.required with
  | a :: b :: rest =>
    match (a :: b :: rest).mapM Json.Key.text? with
    | some names => .ok ((Text.sortNames names).map .text)
    | none => .error (.notComparable "<" b.toJson.kind a.toJson.kind)
  | keys => .ok keys

theorem applyAll_append (r : Run) (xs ys : List Event) :
    r.applyAll (xs ++ ys) = (r.applyAll xs).applyAll ys :=
  List.foldl_append

end Run

end SchemaTypes
