import SchemaTypes.Declaration.Emit
import SchemaTypes.Proofs.Run.Collection

/-!
# Performing acts

A run that takes acts in applies their events up to the first one that leaves an obstacle. The
events that do happen are data, `Run.happening`, and the run is their fold (`run_perform`), so that
everything said of folds holds of performances.

Only an issue can leave an obstacle. A performance that adds no issue therefore performs all acts,
whatever the limit of the run (`perform_eq_of_recorded_eq_nil`), and that it has added none shows in
the number of issues alone (`recorded_eq_nil_of_count_perform`).
-/

namespace SchemaTypes

/-- An emission that has no reason to end early ends by itself. -/
theorem Emission.failure?_eq_none_iff {e : Emission Unit} :
    e.failure? = none ↔ e.result = .ok () := by
  rw [failure?]
  cases e.result with
  | ok u => exact iff_of_true rfl rfl
  | error m => exact iff_of_false nofun nofun

namespace Run

open Event

@[simp] theorem limit_applyAll (r : Run) (events : List Event) :
    (r.applyAll events).issues.limit = r.issues.limit := by
  induction events generalizing r with
  | nil => rfl
  | cons event rest ih => rw [applyAll_cons, ih, limit_apply]

/-- The events that happen when acts are performed: all up to the first that leaves an obstacle. -/
def happening (r : Run) : List Act → List Event
  | [] => []
  | .write _ :: rest => r.happening rest
  | .tell event :: rest =>
    match r.obstacle? event with
    | some _ => [event]
    | none => event :: (r.apply event).happening rest

/-- A performance leaves the run that the events make which happen in it. -/
theorem run_perform (r : Run) (acts : List Act) :
    (r.perform acts).run = r.applyAll (r.happening acts) := by
  induction acts generalizing r with
  | nil => rfl
  | cons act rest ih =>
    cases act with
    | write s => exact ih r
    | tell event =>
      rw [perform, happening]
      cases r.obstacle? event with
      | some e => rfl
      | none => exact ih (r.apply event)

/-- A performance that meets no obstacle performs all acts. -/
theorem perform_eq_of_obstacle_eq_none {r : Run} {acts : List Act}
    (h : (r.perform acts).obstacle = none) :
    r.perform acts = ⟨r.applyAll (Act.events acts), Act.text acts, none⟩ := by
  induction acts generalizing r with
  | nil => rfl
  | cons act rest ih =>
    cases act with
    | write s => rw [perform, ih h, Act.text, Act.events]
    | tell event =>
      rw [perform] at h ⊢
      cases hobstacle : r.obstacle? event with
      | some e =>
        rw [hobstacle] at h
        cases h
      | none =>
        rw [hobstacle] at h
        exact ih h

/-- What happens in a performance is the beginning of what is told. -/
theorem happening_prefix (r : Run) (acts : List Act) : r.happening acts <+: Act.events acts := by
  induction acts generalizing r with
  | nil => exact List.prefix_rfl
  | cons act rest ih =>
    cases act with
    | write s => exact ih r
    | tell event =>
      rw [happening, Act.events]
      cases r.obstacle? event with
      | some e => exact List.prefix_append [event] _
      | none => exact (List.prefix_cons_inj event).mpr (ih (r.apply event))

/-- Where a performance meets no obstacle all events happen. -/
theorem happening_eq_of_obstacle_eq_none {r : Run} {acts : List Act}
    (h : (r.perform acts).obstacle = none) : r.happening acts = Act.events acts := by
  induction acts generalizing r with
  | nil => rfl
  | cons act rest ih =>
    cases act with
    | write s => exact ih h
    | tell event =>
      rw [perform] at h
      rw [happening, Act.events]
      cases hobstacle : r.obstacle? event with
      | some e =>
        rw [hobstacle] at h
        cases h
      | none =>
        rw [hobstacle] at h
        exact congrArg (event :: ·) (ih h)

/-- Where the limit is a number all events happen. -/
theorem happening_eq_of_isNumber {r : Run} (h : r.issues.limit.isNumber = true) (acts : List Act) :
    r.happening acts = Act.events acts := by
  apply happening_eq_of_obstacle_eq_none
  rw [perform_eq_of_isNumber h]

theorem addsIssue_eq (r : Run) (event : Event) : r.addsIssue event = (r.issue? event).isSome := by
  cases event with
  | register name text => by_cases h : (r.register name text).1 <;> simp [addsIssue, issue?, h]
  | _ => rfl

/-- An event that adds no issue leaves no obstacle. -/
theorem obstacle?_of_issue?_eq_none {r : Run} {event : Event} (h : r.issue? event = none) :
    r.obstacle? event = none := by
  rw [obstacle?, addsIssue_eq, h]
  rfl

/-- Where no issue is added there is no obstacle. -/
theorem obstacle_eq_none_of_recorded_eq_nil {r : Run} {acts : List Act}
    (h : r.recorded (Act.events acts) = []) : (r.perform acts).obstacle = none := by
  induction acts generalizing r with
  | nil => rfl
  | cons act rest ih =>
    cases act with
    | write s => exact ih h
    | tell event =>
      rw [Act.events, recorded, List.append_eq_nil_iff] at h
      have hissue : r.issue? event = none := by simpa using h.1
      rw [perform, obstacle?_of_issue?_eq_none hissue]
      exact ih h.2

/-- Where no issue is added all acts are performed. -/
theorem perform_eq_of_recorded_eq_nil {r : Run} {acts : List Act}
    (h : r.recorded (Act.events acts) = []) :
    r.perform acts = ⟨r.applyAll (Act.events acts), Act.text acts, none⟩ :=
  perform_eq_of_obstacle_eq_none (obstacle_eq_none_of_recorded_eq_nil h)

theorem happening_eq_of_recorded_eq_nil {r : Run} {acts : List Act}
    (h : r.recorded (Act.events acts) = []) : r.happening acts = Act.events acts :=
  happening_eq_of_obstacle_eq_none (obstacle_eq_none_of_recorded_eq_nil h)

/-- A performance that leaves the number of issues as it was has added none on its way. -/
theorem recorded_eq_nil_of_count_perform {r : Run} {acts : List Act}
    (h : (r.perform acts).run.issues.count = r.issues.count) :
    r.recorded (Act.events acts) = [] := by
  induction acts generalizing r with
  | nil => rfl
  | cons act rest ih =>
    cases act with
    | write s => exact ih h
    | tell event =>
      rw [run_perform, count_applyAll_eq_length_recorded, Nat.add_eq_left,
        List.length_eq_zero_iff, happening] at h
      cases hobstacle : r.obstacle? event with
      | some e =>
        rw [hobstacle, recorded, List.append_eq_nil_iff] at h
        have hissue : r.issue? event = none := by simpa using h.1
        rw [obstacle?_of_issue?_eq_none hissue] at hobstacle
        cases hobstacle
      | none =>
        rw [hobstacle, recorded, List.append_eq_nil_iff] at h
        rw [Act.events, recorded, h.1, List.nil_append]
        apply ih
        rw [run_perform, count_applyAll_eq_length_recorded, h.2]
        rfl

/-! ## Taking an emission in -/

/-- The events that happen to a run while it takes an emission in. -/
def undergone (r : Run) (x : Emit Unit) : List Event := r.happening (x r.memory).acts

theorem run_take (r : Run) (x : Emit Unit) : (r.take x).run = r.applyAll (r.undergone x) :=
  run_perform r _

theorem undergone_prefix (r : Run) (x : Emit Unit) : r.undergone x <+: (x r.memory).events :=
  happening_prefix r _

/-- An emission that meets no obstacle is taken in as it is. -/
theorem take_eq_of_obstacle_eq_none {r : Run} {x : Emit Unit} (h : (r.take x).obstacle = none) :
    r.take x = ⟨r.applyAll (x r.memory).events, (x r.memory).text, none⟩ ∧
      (x r.memory).failure? = none := by
  rw [take] at h ⊢
  dsimp only at h ⊢
  rw [Option.orElse_eq_orElse, Option.orElse_eq_or, Option.or_eq_none_iff] at h
  obtain ⟨hobstacle, hfailure⟩ := h
  rw [perform_eq_of_obstacle_eq_none hobstacle, hfailure]
  exact ⟨rfl, rfl⟩

/-- Where the limit is a number an emission is taken in as it is. -/
theorem take_eq_of_isNumber {r : Run} (h : r.issues.limit.isNumber = true) (x : Emit Unit) :
    r.take x = ⟨r.applyAll (x r.memory).events, (x r.memory).text, (x r.memory).failure?⟩ := by
  unfold take
  dsimp only
  rw [perform_eq_of_isNumber h]
  rfl

theorem undergone_eq_of_isNumber {r : Run} (h : r.issues.limit.isNumber = true) (x : Emit Unit) :
    r.undergone x = (x r.memory).events :=
  happening_eq_of_isNumber h _

/-- An emission that adds no issue is taken in as it is, and it has none to report. -/
theorem take_eq_of_count_eq {r : Run} {x : Emit Unit}
    (h : (r.take x).run.issues.count = r.issues.count) :
    r.take x = ⟨r.applyAll (x r.memory).events, (x r.memory).text, (x r.memory).failure?⟩ ∧
      r.undergone x = (x r.memory).events ∧ r.recorded (x r.memory).events = [] := by
  have hrecorded : r.recorded (Act.events (x r.memory).acts) = [] :=
    recorded_eq_nil_of_count_perform h
  refine ⟨?_, happening_eq_of_recorded_eq_nil hrecorded, hrecorded⟩
  unfold take
  dsimp only
  rw [perform_eq_of_recorded_eq_nil hrecorded]
  rfl

end Run

end SchemaTypes
