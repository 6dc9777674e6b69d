import SchemaTypes.Run.State

/-!
# Running tasks

Tasks run one after the other, each to its end. A task has a name and writes text; tasks of one name
share what they write. When all have run their outcomes are looked at in the same order: a failure
becomes an issue, and what was written before it is kept if there is any.
-/

namespace SchemaTypes.Schedule

/-- How a task ended: what it wrote, and why it failed if it did. -/
structure Outcome where
  name : String
  written : String
  failure : Option String
deriving DecidableEq, Repr

/-- Runs tasks in turn, each from the state that the one before it left. -/
def runAll {σ τ : Type} (run : τ → σ → Outcome × σ) : List τ → σ → List Outcome × σ
  | [], state => ([], state)
  | task :: rest, state =>
    let (outcome, state) := run task state
    let (outcomes, state) := runAll run rest state
    (outcome :: outcomes, state)

/-- Everything that the tasks of a name wrote. -/
def writtenUnder (name : String) (outcomes : List Outcome) : String :=
  String.join ((outcomes.filter fun o ↦ o.name == name).map Outcome.written)

/-- Whether the text of a name is kept: some task of it succeeded, or any of them wrote something.
-/
def isKept (name : String) (outcomes : List Outcome) : Bool :=
  (outcomes.any fun o ↦ o.name == name && o.failure.isNone) ||
    !(writtenUnder name outcomes).isEmpty

/-- The texts of tasks by name, in the order of the names. -/
def results (outcomes : List Outcome) : List (String × String) :=
  let names := (outcomes.map Outcome.name).eraseDups.filter fun name ↦ isKept name outcomes
  Text.sortByName (names.map fun name ↦ (name, writtenUnder name outcomes))

/-- The issues of failed tasks, in the order of the tasks. -/
def failures (outcomes : List Outcome) : List Issue :=
  outcomes.filterMap fun o ↦ o.failure.map fun reason ↦ ⟨o.name, .taskFailed reason⟩

/-- A number of workers, of which there may be a part or none at all; only a number can tell. -/
def workersUpTo (tasks : Nat) : Json → Except Mismatch Nat
  | .bool b => .ok (min b.toNat tasks)
  | .int n => .ok (min n.toNat tasks)
  | .real x =>
    if x.isFinite then .ok (min x.toRat.floor.toNat tasks)
    else .ok (if x.isNaN || x.isNegative then 0 else tasks)
  | limit => .error (.notComparable "<" .int limit.kind)

/-- Number of workers that a number of tasks is given to: as many as there are tasks, up to a limit
unless that is void, and at least one. -/
def workers (limit : Json) (tasks : Nat) : Except Mismatch Nat :=
  if limit.isVoid then .ok (max 1 tasks) else max 1 <$> workersUpTo tasks limit

/-- The record of how tasks are given to workers; without tasks there is none, and nothing is asked
of the limit. -/
def startLog (limit : Json) (tasks : Nat) : Except Mismatch (List Log.Record) :=
  if tasks = 0 then .ok []
  else do
    return [⟨.debug, .scheduling, "generating " ++ toString tasks ++ " schemas on " ++
      toString (← workers limit tasks) ++ " workers"⟩]

/-- The record of a failed task. -/
def failureRecord (name : String) : Log.Record :=
  ⟨.error, .scheduling, "generating " ++ name ++ " failed"⟩

/-- What the failures among outcomes amount to, in the order of the tasks. -/
def failureEvents (outcomes : List Outcome) : List Event :=
  (failures outcomes).flatMap fun issue ↦ [.note (failureRecord issue.path), .report issue]

end SchemaTypes.Schedule
