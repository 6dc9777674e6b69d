import SchemaTypes.Run.State

/-!
# Acts

What an emission does, in one order: it writes texts and tells events. Performing acts on a run
collects what is written and lets the events happen, up to the first one that leaves an obstacle;
what has been written and collected by then stays.

A run whose limit is a number meets no obstacle, so that there all events happen and all of the text
is written (`perform_eq_of_isNumber`).
-/

namespace SchemaTypes

/-- What an emission does. -/
inductive Act where
  | write (text : String)
  | tell (event : Event)

namespace Act

/-- The text that acts write. -/
def text : List Act → String
  | [] => ""
  | .write s :: rest => s ++ text rest
  | .tell _ :: rest => text rest

/-- The events that acts tell. -/
def events : List Act → List Event
  | [] => []
  | .write _ :: rest => events rest
  | .tell event :: rest => event :: events rest

@[simp] theorem text_append (xs ys : List Act) : text (xs ++ ys) = text xs ++ text ys := by
  induction xs with
  | nil => simp [text]
  | cons act rest ih => cases act <;> simp [text, ih, String.append_assoc]

@[simp] theorem events_append (xs ys : List Act) : events (xs ++ ys) = events xs ++ events ys := by
  induction xs with
  | nil => simp [events]
  | cons act rest ih => cases act <;> simp [events, ih]

@[simp] theorem text_map_tell (es : List Event) : text (es.map .tell) = "" := by
  induction es with
  | nil => rfl
  | cons e rest ih => simpa [text] using ih

@[simp] theorem events_map_tell (es : List Event) : events (es.map .tell) = es := by
  induction es with
  | nil => rfl
  | cons e rest ih => simpa [events] using ih

end Act

/-- What comes of performing acts on a run. -/
structure Performance where
  run : Run
  /-- What has been written. -/
  text : String
  /-- Why not all acts have been performed, if they have not. -/
  obstacle : Option Mismatch

namespace Run

/-- Performs acts up to the first one that leaves an obstacle. -/
def perform (r : Run) : List Act → Performance
  | [] => ⟨r, "", none⟩
  | .write s :: rest =>
    let done := r.perform rest
    { done with text := s ++ done.text }
  | .tell event :: rest =>
    match r.obstacle? event with
    | some e => ⟨r.apply event, "", some e⟩
    | none => (r.apply event).perform rest

/-- An event does not change how many issues are kept. -/
@[simp] theorem limit_apply (r : Run) (event : Event) :
    (r.apply event).issues.limit = r.issues.limit := by
  cases event with
  | register name text =>
    simp only [apply, register]
    split
    · rfl
    · split <;> rfl
  | require path =>
    simp only [apply, require]
    split <;> rfl
  | _ => rfl

/-- A limit that is a number is no obstacle. -/
theorem obstacle?_eq_none {r : Run} (h : r.issues.limit.isNumber = true) (event : Event) :
    r.obstacle? event = none := by
  unfold obstacle? Issues.obstacle? Issues.hasRoom
  obtain ⟨b, hb⟩ := Json.exceeds_eq_ok h r.issues.kept.length
  simp [hb]

/-- Where the limit is a number all acts are performed. -/
theorem perform_eq_of_isNumber {r : Run} (h : r.issues.limit.isNumber = true) (acts : List Act) :
    r.perform acts = ⟨r.applyAll (Act.events acts), Act.text acts, none⟩ := by
  induction acts generalizing r with
  | nil => rfl
  | cons act rest ih =>
    cases act with
    | write s => simp [perform, ih h, Act.text, Act.events]
    | tell event =>
      have : (r.apply event).issues.limit.isNumber = true := by simpa using h
      simp [perform, obstacle?_eq_none h, ih this, Act.text, Act.events, applyAll]

end Run

end SchemaTypes
