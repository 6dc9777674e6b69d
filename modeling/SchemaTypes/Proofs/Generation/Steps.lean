import SchemaTypes.Generation
import SchemaTypes.Proofs.Run.Performance

/-!
# Steps of a generation

A step changes the run by letting events happen, and may end generation. The lemmas here take a
sequence of steps apart: one that gets a value got one from every step (`of_runFrom_bind_eq_ok`),
and steps behind which there is no issue had none on their way (`count_eq_zero_of_bind`).
-/

namespace SchemaTypes.Generation.Step

open Event Run

variable {α β : Type} {x : Step α} {f : α → Step β} {r r' : Run}

/-! ## Sequences -/

@[simp] theorem runFrom_get (r : Run) : (get : Step Run).runFrom r = (.ok r, r) := rfl

@[simp] theorem runFrom_set (r' r : Run) : (set r' : Step Unit).runFrom r = (.ok (), r') := rfl

theorem runFrom_bind_of_ok {a : α} (h : x.runFrom r = (.ok a, r')) (f : α → Step β) :
    (x >>= f).runFrom r = (f a).runFrom r' := by
  rw [runFrom] at h
  rw [runFrom, ExceptT.run_bind, StateT.run_bind, h]
  rfl

theorem runFrom_bind_of_error {e : Fault} (h : x.runFrom r = (.error e, r')) (f : α → Step β) :
    (x >>= f).runFrom r = (.error e, r') := by
  rw [runFrom] at h
  rw [runFrom, ExceptT.run_bind, StateT.run_bind, h]
  rfl

/-- Two steps that get a value both get one. -/
theorem of_runFrom_bind_eq_ok {b : β} (h : (x >>= f).runFrom r = (.ok b, r')) :
    ∃ a between, x.runFrom r = (.ok a, between) ∧ (f a).runFrom between = (.ok b, r') := by
  cases hx : x.runFrom r with
  | mk result between =>
    cases result with
    | ok a =>
      rw [runFrom_bind_of_ok hx] at h
      exact ⟨a, between, rfl, h⟩
    | error e =>
      rw [runFrom_bind_of_error hx] at h
      cases h

@[simp] theorem runFrom_lift_ok (a : α) (r : Run) :
    (Step.lift (.ok a)).runFrom r = (.ok a, r) := rfl

@[simp] theorem runFrom_lift_error (e : Mismatch) (r : Run) :
    (Step.lift (.error e) : Step α).runFrom r = (.error (.mismatch e), r) := rfl

@[simp] theorem runFrom_liftM (value : Except Fault α) (r : Run) :
    (liftM value : Step α).runFrom r = (value, r) := by
  cases value <;> rfl

/-! ## Events -/

theorem runFrom_tell (events : List Event) (r : Run) :
    (Step.tell events).runFrom r =
      (match (r.perform (events.map .tell)).obstacle with
        | none => .ok ()
        | some e => .error (.mismatch e), (r.perform (events.map .tell)).run) := by
  rw [Step.tell, runFrom_bind_of_ok (runFrom_get r)]
  generalize r.perform (events.map .tell) = done
  obtain ⟨run, text, obstacle⟩ := done
  cases obstacle <;> rfl

/-- Events that are told to their end have all happened. -/
theorem of_runFrom_tell_eq_ok {events : List Event} {a : Unit}
    (h : (Step.tell events).runFrom r = (.ok a, r')) : r' = r.applyAll events := by
  rw [runFrom_tell, Prod.mk.injEq] at h
  obtain ⟨hresult, hrun⟩ := h
  cases hobstacle : (r.perform (events.map .tell)).obstacle with
  | some e =>
    rw [hobstacle] at hresult
    cases hresult
  | none => rw [← hrun, perform_eq_of_obstacle_eq_none hobstacle, Act.events_map_tell]

/-- Where the limit is a number events are told to their end. -/
theorem runFrom_tell_of_isNumber (h : r.issues.limit.isNumber = true) (events : List Event) :
    (Step.tell events).runFrom r = (.ok (), r.applyAll events) := by
  rw [runFrom_tell, perform_eq_of_isNumber h, Act.events_map_tell]

/-- Events that add no issue are told to their end. -/
theorem runFrom_tell_of_recorded_eq_nil {events : List Event} (h : r.recorded events = []) :
    (Step.tell events).runFrom r = (.ok (), r.applyAll events) := by
  have hperform : r.perform (events.map .tell) = ⟨r.applyAll events, "", none⟩ := by
    have hrecorded : r.recorded (Act.events (events.map .tell)) = [] := by
      rwa [Act.events_map_tell]
    rw [perform_eq_of_recorded_eq_nil hrecorded, Act.events_map_tell, Act.text_map_tell]
  rw [runFrom_tell, hperform]

/-- Events that leave the number of issues as it was add no issue. -/
theorem recorded_eq_nil_of_count_tell {events : List Event}
    (h : ((Step.tell events).runFrom r).2.issues.count = r.issues.count) :
    r.recorded events = [] := by
  rw [runFrom_tell] at h
  have hrecorded := recorded_eq_nil_of_count_perform h
  rwa [Act.events_map_tell] at hrecorded

/-- Notes never end generation. -/
theorem runFrom_tell_notes (records : List Log.Record) (r : Run) :
    (Step.tell (records.map .note)).runFrom r = (.ok (), r.applyAll (records.map .note)) :=
  runFrom_tell_of_recorded_eq_nil (recorded_map_note records r)

theorem runFrom_tell_nil (r : Run) : (Step.tell []).runFrom r = (.ok (), r) :=
  runFrom_tell_notes [] r

/-! ## Steps that let events happen -/

/-- A step changes the run by events alone. -/
def Grows (x : Step α) : Prop := ∀ r, ∃ events, (x.runFrom r).2 = r.applyAll events

theorem grows_pure (a : α) : Grows (pure a) := fun _ ↦ ⟨[], rfl⟩

theorem grows_get : Grows get := fun _ ↦ ⟨[], rfl⟩

theorem grows_liftM (value : Except Fault α) : Grows (liftM value) := by
  intro r
  rw [runFrom_liftM]
  exact ⟨[], rfl⟩

theorem grows_tell (events : List Event) : Grows (Step.tell events) := by
  intro r
  rw [runFrom_tell]
  exact ⟨_, run_perform r _⟩

theorem Grows.bind (hx : Grows x) (hf : ∀ a, Grows (f a)) : Grows (x >>= f) := by
  intro r
  obtain ⟨first, hfirst⟩ := hx r
  cases h : x.runFrom r with
  | mk result between =>
    rw [h] at hfirst
    cases result with
    | ok a =>
      obtain ⟨second, hsecond⟩ := hf a between
      refine ⟨first ++ second, ?_⟩
      rw [runFrom_bind_of_ok h, hsecond, applyAll_append, ← hfirst]
    | error e =>
      rw [runFrom_bind_of_error h]
      exact ⟨first, hfirst⟩

/-- No issue is forgotten. -/
theorem Grows.count_le (hx : Grows x) (r : Run) :
    r.issues.count ≤ (x.runFrom r).2.issues.count := by
  obtain ⟨events, hevents⟩ := hx r
  rw [hevents, count_applyAll_eq_length_recorded]
  exact Nat.le_add_right _ _

theorem Grows.count_eq_zero (hx : Grows x) (h : (x.runFrom r).2.issues.count = 0) :
    r.issues.count = 0 :=
  Nat.le_zero.mp (Nat.le_trans (hx.count_le r) (Nat.le_of_eq h))

/-- If there is no issue behind two steps there is none between them. -/
theorem count_eq_zero_of_bind (hf : ∀ a, Grows (f a))
    (h : ((x >>= f).runFrom r).2.issues.count = 0) : (x.runFrom r).2.issues.count = 0 := by
  cases hx : x.runFrom r with
  | mk result between =>
    cases result with
    | ok a =>
      rw [runFrom_bind_of_ok hx] at h
      exact (hf a).count_eq_zero h
    | error e =>
      rw [runFrom_bind_of_error hx] at h
      exact h

end SchemaTypes.Generation.Step
