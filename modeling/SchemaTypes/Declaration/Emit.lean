import SchemaTypes.Run.Act

/-!
# Emission

Emission writes text, tells events, and may end early on a value of an unexpected type. What was
written and told before such an end stays. The memory of the table search is handed through.

The text of a part is captured before it is written, so that it can be changed on the way; a part
that ends early loses its text but not its events.

An emission knows nothing of the run that it happens to. A run takes its acts in, and may end it
earlier than it ends by itself.
-/

namespace SchemaTypes

/-- What an emission brings about. -/
structure Emission (α : Type) where
  acts : List Act
  memory : Correlator.Memory
  result : Except Mismatch α

namespace Emission

variable {α : Type}

/-- The text that is written. -/
def text (e : Emission α) : String := Act.text e.acts

/-- The events that are told. -/
def events (e : Emission α) : List Event := Act.events e.acts

/-- Why an emission ends early, if it does. -/
def failure? (e : Emission α) : Option Mismatch :=
  match e.result with
  | .ok _ => none
  | .error m => some m

end Emission

/-- An emission that depends on what the search for tables remembers. -/
def Emit (α : Type) : Type := Correlator.Memory → Emission α

namespace Emit

variable {α β : Type}

/-- The emission that brings nothing about but its result. -/
def done (a : α) : Emit α := fun memory ↦ ⟨[], memory, .ok a⟩

/-- One emission and then another one that depends on its result. -/
def andThen (x : Emit α) (f : α → Emit β) : Emit β := fun memory ↦
  match x memory with
  | ⟨acts, memory, .ok a⟩ =>
    let next := f a memory
    ⟨acts ++ next.acts, next.memory, next.result⟩
  | ⟨acts, memory, .error e⟩ => ⟨acts, memory, .error e⟩

instance : Monad Emit where
  pure := done
  bind := andThen

/-- Does a single thing. -/
def act (a : Act) : Emit Unit := fun memory ↦ ⟨[a], memory, .ok ()⟩

/-- Writes a text. -/
def write (text : String) : Emit Unit := act (.write text)

/-- Tells an event. -/
def tell (event : Event) : Emit Unit := act (.tell event)

/-- Writes the name of a type that is declared elsewhere. -/
def mention (name : String) : Emit Unit := do
  tell (.mention name)
  write name

/-- Hands a declaration over that cannot stand inside an expression, and writes its name. -/
def hoist (name declaration : String) : Emit Unit := do
  tell (.register name declaration)
  mention name

/-- Adds a record to the log. -/
def note (level : Log.Level) (source : Log.Source) (message : String) : Emit Unit :=
  tell (.note ⟨level, source, message⟩)

/-- Goes on with a value, or ends early. -/
def lift (value : Except Mismatch α) : Emit α := fun memory ↦ ⟨[], memory, value⟩

/-- Takes the text of an emission out, as its result. -/
def capture (x : Emit Unit) : Emit String := fun memory ↦
  let inner := x memory
  ⟨inner.events.map .tell, inner.memory, inner.result.map fun () ↦ inner.text⟩

/-- Searches tables, and tells what the search notes and learns. -/
def search (find : Correlator.Memory → Except Mismatch Correlator.Finding) :
    Emit (List Correlator.Candidate) := fun memory ↦
  match find memory with
  | .ok found =>
    let learnt := found.learnt.map fun (shape, candidates) ↦ Event.learn shape candidates
    ⟨(found.log.map Event.note ++ learnt).map .tell, found.learnt ++ memory, .ok found.candidates⟩
  | .error e => ⟨[], memory, .error e⟩

/-- An emission that happens under a condition only. -/
def whenever (condition : Bool) (x : Emit Unit) : Emit Unit :=
  if condition then x else done ()

/-- The emissions of a list, in turn. -/
def each (xs : List (Emit Unit)) : Emit Unit :=
  match xs with
  | [] => done ()
  | x :: rest => andThen x fun _ ↦ each rest

end Emit

/-- Lets an emission happen to a run, until it ends or meets an obstacle. -/
def Run.take (r : Run) (x : Emit Unit) : Performance :=
  let emission := x r.memory
  let done := r.perform emission.acts
  { done with obstacle := done.obstacle <|> emission.failure? }

end SchemaTypes
