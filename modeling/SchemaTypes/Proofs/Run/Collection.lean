import Mathlib.Data.List.Nodup
import SchemaTypes.Run.State

/-!
# What a run has collected

A run is the fold of its events, so whatever it holds is a function of the run it began as and of
the events. This module gives that function for each collection: the registry holds the first text
registered under each name (`lookup_registry_applyAll`), the issues are those it has recorded one
after the other (`issues_applyAll`), and a package is needed when it was required
(`mem_required_applyAll`).

Two texts under one name count once for every registration whose text is not the kept one. Which
text is kept never changes again, so that this can be said with the registry at the end of the run
instead of the registry at the time (`count_applyAll`). All accounts of lost declarations rest on
that.
-/

namespace SchemaTypes

/-! ## Events by kind -/

namespace Event

/-- The declaration that an event hands over. -/
def registration? : Event → Option (String × String)
  | .register name text => some (name, text)
  | _ => none

/-- The name that an event mentions. -/
def mention? : Event → Option String
  | .mention name => some name
  | _ => none

/-- The package that an event requires. -/
def requirement? : Event → Option Json.Key
  | .require path => some path
  | _ => none

/-- The issue that an event reports. -/
def report? : Event → Option Issue
  | .report issue => some issue
  | _ => none

/-- The declarations handed over by events, in turn. -/
def registrations (events : List Event) : List (String × String) :=
  events.filterMap registration?

/-- The names mentioned by events, in turn. -/
def mentions (events : List Event) : List String := events.filterMap mention?

/-- The packages required by events, in turn. -/
def requirements (events : List Event) : List Json.Key := events.filterMap requirement?

/-- The issues reported by events, in turn. -/
def reports (events : List Event) : List Issue := events.filterMap report?

@[simp] theorem registrations_cons (event : Event) (rest : List Event) :
    registrations (event :: rest) = event.registration?.toList ++ registrations rest := by
  cases h : event.registration? <;> simp [registrations, h]

@[simp] theorem mentions_cons (event : Event) (rest : List Event) :
    mentions (event :: rest) = event.mention?.toList ++ mentions rest := by
  cases h : event.mention? <;> simp [mentions, h]

@[simp] theorem requirements_cons (event : Event) (rest : List Event) :
    requirements (event :: rest) = event.requirement?.toList ++ requirements rest := by
  cases h : event.requirement? <;> simp [requirements, h]

@[simp] theorem reports_cons (event : Event) (rest : List Event) :
    reports (event :: rest) = event.report?.toList ++ reports rest := by
  cases h : event.report? <;> simp [reports, h]

@[simp] theorem registrations_append (xs ys : List Event) :
    registrations (xs ++ ys) = registrations xs ++ registrations ys :=
  List.filterMap_append

@[simp] theorem mentions_append (xs ys : List Event) :
    mentions (xs ++ ys) = mentions xs ++ mentions ys :=
  List.filterMap_append

@[simp] theorem reports_append (xs ys : List Event) :
    reports (xs ++ ys) = reports xs ++ reports ys :=
  List.filterMap_append

@[simp] theorem reports_map_note (records : List Log.Record) :
    reports (records.map .note) = [] := by
  simp [reports, List.filterMap_map, Function.comp_def, report?]

@[simp] theorem registrations_map_note (records : List Log.Record) :
    registrations (records.map .note) = [] := by
  simp [registrations, List.filterMap_map, Function.comp_def, registration?]

theorem mem_registrations {events : List Event} {name text : String} :
    (name, text) ∈ registrations events ↔ .register name text ∈ events := by
  simp only [registrations, List.mem_filterMap]
  constructor
  · rintro ⟨event, hmem, h⟩
    cases event <;> simp [registration?] at h
    obtain ⟨rfl, rfl⟩ := h
    exact hmem
  · intro h
    exact ⟨_, h, rfl⟩

theorem mem_mentions {events : List Event} {name : String} :
    name ∈ mentions events ↔ .mention name ∈ events := by
  simp only [mentions, List.mem_filterMap]
  constructor
  · rintro ⟨event, hmem, h⟩
    cases event <;> simp [mention?] at h
    subst h
    exact hmem
  · intro h
    exact ⟨_, h, rfl⟩

end Event

namespace Run

open Event

theorem applyAll_cons (r : Run) (event : Event) (events : List Event) :
    r.applyAll (event :: events) = (r.apply event).applyAll events := rfl

/-! ## The registry -/

theorem registry_apply_register (r : Run) (name text : String) :
    (r.apply (.register name text)).registry =
      if (r.registry.lookup name).isSome then r.registry else r.registry ++ [(name, text)] := by
  cases h : r.registry.lookup name with
  | none => simp [apply, register, h]
  | some kept => by_cases hk : kept = text <;> simp [apply, register, h, hk, report, note]

theorem registry_apply_of_registration?_eq_none {event : Event} (h : event.registration? = none)
    (r : Run) : (r.apply event).registry = r.registry := by
  cases event with
  | register name text => simp [registration?] at h
  | require path =>
    simp only [apply, require]
    split <;> rfl
  | _ => rfl

theorem lookup_registry_apply (r : Run) (event : Event) (name : String) :
    (r.apply event).registry.lookup name =
      (r.registry.lookup name).or (event.registration?.toList.lookup name) := by
  cases h : event.registration? with
  | none => rw [registry_apply_of_registration?_eq_none h]; simp
  | some d =>
    cases event <;> simp only [registration?, reduceCtorEq, Option.some.injEq] at h
    case register n text =>
      subst h
      rw [registry_apply_register]
      by_cases hn : name = n
      · subst hn
        cases hr : r.registry.lookup name <;> simp [hr, List.lookup_append]
      · have hne : (name == n) = false := by simpa using hn
        split <;> simp [List.lookup_append, List.lookup_cons, hne]

/-- The registry keeps what it held, and under any other name what was registered first. -/
theorem lookup_registry_applyAll (r : Run) (events : List Event) (name : String) :
    (r.applyAll events).registry.lookup name =
      (r.registry.lookup name).or ((registrations events).lookup name) := by
  induction events generalizing r with
  | nil => simp [applyAll, registrations]
  | cons event rest ih =>
    rw [applyAll_cons, ih, lookup_registry_apply, registrations_cons, List.lookup_append,
      Option.or_assoc]

/-- A kept text stays. -/
theorem lookup_registry_applyAll_of_eq_some {r : Run} {name kept : String}
    (h : r.registry.lookup name = some kept) (events : List Event) :
    (r.applyAll events).registry.lookup name = some kept := by
  rw [lookup_registry_applyAll, h, Option.some_or]

/-- What is registered has a text under its name from then on. -/
theorem isSome_lookup_registry_applyAll {events : List Event} {name text : String}
    (h : (name, text) ∈ registrations events) (r : Run) :
    ((r.applyAll events).registry.lookup name).isSome := by
  have hsome : ((registrations events).lookup name).isSome := by
    rw [List.lookup_isSome_iff]
    exact ⟨_, h, by simp⟩
  rw [lookup_registry_applyAll, Option.isSome_or, hsome, Bool.or_true]

theorem registry_applyAll_of_registrations_eq_nil {events : List Event}
    (h : registrations events = []) (r : Run) : (r.applyAll events).registry = r.registry := by
  induction events generalizing r with
  | nil => rfl
  | cons event rest ih =>
    rw [registrations_cons, List.append_eq_nil_iff] at h
    have hevent : event.registration? = none := by simpa using h.1
    rw [applyAll_cons, ih h.2, registry_apply_of_registration?_eq_none hevent]

theorem nodup_names_registry_apply {r : Run} (h : (Entries.names r.registry).Nodup)
    (event : Event) : (Entries.names (r.apply event).registry).Nodup := by
  cases hd : event.registration? with
  | none => rwa [registry_apply_of_registration?_eq_none hd]
  | some d =>
    cases event <;> simp only [registration?, reduceCtorEq, Option.some.injEq] at hd
    case register name text =>
      rw [registry_apply_register]
      split
      · exact h
      · next hnew =>
        rw [Entries.isSome_lookup_iff] at hnew
        rw [Entries.names, List.map_append, List.map_singleton]
        exact List.Nodup.append h (List.nodup_singleton name) (List.disjoint_singleton.mpr hnew)

/-- The registry never holds a name twice. -/
theorem nodup_names_registry_applyAll {r : Run} (h : (Entries.names r.registry).Nodup)
    (events : List Event) : (Entries.names (r.applyAll events).registry).Nodup := by
  induction events generalizing r with
  | nil => exact h
  | cons event rest ih => exact ih (nodup_names_registry_apply h event)

/-! ## Packages -/

theorem required_apply (r : Run) (event : Event) :
    (r.apply event).required =
      r.required ++ event.requirement?.toList.filter fun path ↦ !r.required.contains path := by
  cases event with
  | require path =>
    by_cases h : path ∈ r.required <;> simp [apply, require, requirement?, h]
  | register name text =>
    simp only [apply, register]
    split
    · simp [requirement?]
    · split <;> simp [requirement?, report, note]
  | _ => simp [apply, requirement?, note, report, learn]

theorem mem_required_applyAll {r : Run} {events : List Event} {path : Json.Key} :
    path ∈ (r.applyAll events).required ↔
      path ∈ r.required ∨ path ∈ requirements events := by
  induction events generalizing r with
  | nil => simp [applyAll, requirements]
  | cons event rest ih =>
    rw [applyAll_cons, ih, required_apply, requirements_cons, List.mem_append, List.mem_append,
      List.mem_filter]
    by_cases h : path ∈ r.required <;> simp [h]

theorem nodup_required_apply {r : Run} (h : r.required.Nodup) (event : Event) :
    (r.apply event).required.Nodup := by
  rw [required_apply]
  cases event.requirement? with
  | none => simpa using h
  | some path =>
    by_cases hp : path ∈ r.required
    · simpa [hp] using h
    · have hkept : [path].filter (fun p ↦ !r.required.contains p) = [path] := by simp [hp]
      rw [Option.toList_some, hkept]
      exact List.Nodup.append h (List.nodup_singleton path) (List.disjoint_singleton.mpr hp)

/-- No package is listed twice. -/
theorem nodup_required_applyAll {r : Run} (h : r.required.Nodup) (events : List Event) :
    (r.applyAll events).required.Nodup := by
  induction events generalizing r with
  | nil => exact h
  | cons event rest ih => exact ih (nodup_required_apply h event)

/-! ## Memory -/

theorem mem_memory_apply {r : Run} {event : Event} {found : String × List Correlator.Candidate} :
    found ∈ (r.apply event).memory ↔ found ∈ r.memory ∨ event = .learn found.1 found.2 := by
  cases event with
  | learn shape candidates => simp [apply, learn, Prod.ext_iff, or_comm, eq_comm]
  | register name text =>
    simp only [apply, register, reduceCtorEq, or_false]
    split
    · rfl
    · split <;> rfl
  | require path =>
    simp only [apply, require, reduceCtorEq, or_false]
    split <;> rfl
  | _ => simp [apply, note, report]

/-- What is remembered at the end was remembered before, or has been learnt. -/
theorem mem_memory_applyAll {r : Run} {events : List Event}
    {found : String × List Correlator.Candidate} :
    found ∈ (r.applyAll events).memory ↔
      found ∈ r.memory ∨ .learn found.1 found.2 ∈ events := by
  induction events generalizing r with
  | nil => simp [applyAll]
  | cons event rest ih =>
    rw [applyAll_cons, ih, mem_memory_apply, List.mem_cons, or_assoc, eq_comm]

/-! ## Issues -/

/-- The issue that an event adds to a run: one that is reported, or a collision of names. -/
def issue? (r : Run) : Event → Option Issue
  | .report issue => some issue
  | .register name text => if (r.register name text).1 then none else some ⟨"", .duplicateName name⟩
  | _ => none

/-- The issues that events add to a run, in turn. -/
def recorded (r : Run) : List Event → List Issue
  | [] => []
  | event :: rest => (r.issue? event).toList ++ (r.apply event).recorded rest

theorem recorded_append (r : Run) (xs ys : List Event) :
    r.recorded (xs ++ ys) = r.recorded xs ++ (r.applyAll xs).recorded ys := by
  induction xs generalizing r with
  | nil => rfl
  | cons event rest ih =>
    rw [List.cons_append, recorded, recorded, ih, List.append_assoc, applyAll_cons]

@[simp] theorem recorded_map_note (records : List Log.Record) (r : Run) :
    r.recorded (records.map .note) = [] := by
  induction records generalizing r with
  | nil => rfl
  | cons record rest ih =>
    rw [List.map_cons, recorded, ih]
    rfl

theorem issues_apply (r : Run) (event : Event) :
    (r.apply event).issues = (r.issue? event).toList.foldl Issues.add r.issues := by
  cases event with
  | register name text =>
    cases h : r.registry.lookup name with
    | none => simp [apply, issue?, register, h]
    | some kept => by_cases hk : kept = text <;> simp [apply, issue?, register, h, hk, report, note]
  | require path =>
    simp only [apply, issue?, require]
    split <;> rfl
  | _ => rfl

/-- The issues of a run are those that it has recorded. -/
theorem issues_applyAll (r : Run) (events : List Event) :
    (r.applyAll events).issues = (r.recorded events).foldl Issues.add r.issues := by
  induction events generalizing r with
  | nil => rfl
  | cons event rest ih =>
    rw [applyAll_cons, ih, issues_apply, recorded, List.foldl_append]

theorem count_foldl_add (issues : Issues) (added : List Issue) :
    (added.foldl Issues.add issues).count = issues.count + added.length := by
  induction added generalizing issues with
  | nil => rfl
  | cons issue rest ih =>
    have hadd : (issues.add issue).count = issues.count + 1 := rfl
    rw [List.foldl_cons, ih, hadd, List.length_cons]
    omega

theorem count_applyAll_eq_length_recorded (r : Run) (events : List Event) :
    (r.applyAll events).issues.count = r.issues.count + (r.recorded events).length := by
  rw [issues_applyAll, count_foldl_add]

/-- Apart from collisions of names a run records what is reported, whatever it holds. -/
theorem filter_recorded (r : Run) (events : List Event) :
    (r.recorded events).filter (fun issue ↦ issue.cause.kind != .nameCollision) =
      (reports events).filter fun issue ↦ issue.cause.kind != .nameCollision := by
  induction events generalizing r with
  | nil => rfl
  | cons event rest ih =>
    rw [recorded, reports_cons, List.filter_append, List.filter_append, ih]
    congr 1
    cases event with
    | register name text =>
      rw [issue?]
      split <;> rfl
    | _ => rfl

/-- Whether a run keeps another text under the name of a declaration, or none. -/
def overrules (r : Run) (d : String × String) : Bool := r.registry.lookup d.1 != some d.2

/-- A registration is a collision exactly if the run keeps another text afterwards. -/
theorem issue?_register (r : Run) (name text : String) :
    r.issue? (.register name text) =
      if (r.apply (.register name text)).overrules (name, text)
      then some ⟨"", .duplicateName name⟩ else none := by
  rw [overrules, registry_apply_register, issue?, register]
  cases h : r.registry.lookup name with
  | none => simp [List.lookup_append, h]
  | some kept => by_cases hk : kept = text <;> simp [h, hk]

/-- Later events do not change which text is kept under a name that has one. -/
theorem overrules_applyAll {r : Run} {d : String × String}
    (h : (r.registry.lookup d.1).isSome) (events : List Event) :
    (r.applyAll events).overrules d = r.overrules d := by
  obtain ⟨kept, hk⟩ := Option.isSome_iff_exists.mp h
  rw [overrules, overrules, lookup_registry_applyAll_of_eq_some hk, hk]

/-- **The account of issues.** A run has one issue for each that was reported, and one for each
registration whose text is not the one kept in the end. -/
theorem count_applyAll (r : Run) (events : List Event) :
    (r.applyAll events).issues.count =
      r.issues.count + (reports events).length +
        ((registrations events).filter (r.applyAll events).overrules).length := by
  rw [count_applyAll_eq_length_recorded, Nat.add_assoc, Nat.add_left_cancel_iff]
  induction events generalizing r with
  | nil => rfl
  | cons event rest ih =>
    rw [recorded, List.length_append, applyAll_cons, ih, reports_cons, registrations_cons,
      List.filter_append, List.length_append, List.length_append]
    suffices hhead : (r.issue? event).toList.length =
        event.report?.toList.length + (event.registration?.toList.filter
          ((r.apply event).applyAll rest).overrules).length by
      omega
    cases event with
    | register name text =>
      have hmem : (name, text) ∈ registrations [.register name text] := by simp [registration?]
      have hkept : ((r.apply (.register name text)).registry.lookup name).isSome :=
        isSome_lookup_registry_applyAll hmem r
      have hsame : ((r.apply (.register name text)).applyAll rest).overrules (name, text) =
          (r.apply (.register name text)).overrules (name, text) :=
        overrules_applyAll hkept rest
      simp only [report?, registration?, Option.toList_some, Option.toList_none, List.filter_cons,
        List.filter_nil, List.length_nil, Nat.zero_add, issue?_register,
        hsame]
      split <;> rfl
    | _ => rfl

/-- No issue is added exactly if none is reported and no registration is overruled. -/
theorem recorded_eq_nil_iff {r : Run} {events : List Event} :
    r.recorded events = [] ↔
      reports events = [] ∧
        ∀ d ∈ registrations events, (r.applyAll events).registry.lookup d.1 = some d.2 := by
  have hlen := count_applyAll r events
  rw [count_applyAll_eq_length_recorded] at hlen
  have hzero : (r.recorded events).length = 0 ↔ (reports events).length = 0 ∧
      ((registrations events).filter (r.applyAll events).overrules).length = 0 := by omega
  simpa [overrules] using hzero

end Run

end SchemaTypes
