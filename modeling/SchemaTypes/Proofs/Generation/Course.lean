import SchemaTypes.Proofs.Generation.Steps
import SchemaTypes.Proofs.Run.Schedule

/-!
# The course of a generation

Entries are emitted in turn, each from the run that the one before it left, and behind that come the
failures, then the hoisted declarations that are in the way of schemas. So the run of a generation
is the fold of a list of events that can be written down (`run_emission`).

A course is clean when none of this adds an issue (`Clean`). Then every emission is taken in as it
is (`Clean.turn`), every text gets into the file, and nothing is left to say about the end of the
run (`runFrom_assemble_of_clean`). Whether it was clean shows in the number of issues alone
(`count_assemble_eq_zero_iff`).
-/

namespace SchemaTypes.Generation

open Event Schedule Step

variable {env : Environment} {commandLine : Except FileTree.PathError String}
  {declared : List (String × String)} {es : List Entry} {r r' : Run} {file : SourceFile}

/-! ## Emission -/

/-- What happens while entries are emitted in turn. -/
def emissionEvents (env : Environment) (es : List Entry) (r : Run) : List Event :=
  (turns (emitEntry env) es r).flatMap fun t ↦ t.2.undergone (t.1.declaration env)

theorem emissionEvents_cons (e : Entry) (rest : List Entry) (r : Run) :
    emissionEvents env (e :: rest) r =
      r.undergone (e.declaration env) ++ emissionEvents env rest (emitEntry env e r).2 := rfl

theorem run_emitEntry (e : Entry) (r : Run) :
    (emitEntry env e r).2 = r.applyAll (r.undergone (e.declaration env)) :=
  Run.run_take r _

/-- Emitting entries leaves the run that the events make which happen meanwhile. -/
theorem run_emission (es : List Entry) (r : Run) :
    (runAll (emitEntry env) es r).2 = r.applyAll (emissionEvents env es r) := by
  induction es generalizing r with
  | nil => rfl
  | cons e rest ih =>
    rw [runAll, emissionEvents_cons, Run.applyAll_append, ← run_emitEntry, ← ih]

/-- The outcomes of emitting entries in turn. -/
def outcomes (env : Environment) (es : List Entry) (r : Run) : List Outcome :=
  (runAll (emitEntry env) es r).1

theorem outcomes_eq_map (es : List Entry) (r : Run) :
    outcomes env es r = (turns (emitEntry env) es r).map fun t ↦ (emitEntry env t.1 t.2).1 :=
  runAll_fst _ es r

theorem names_outcomes (es : List Entry) (r : Run) :
    (outcomes env es r).map Outcome.name = es.map Entry.name := by
  have hturns := map_fst_turns (emitEntry env) es r
  rw [outcomes_eq_map, List.map_map]
  nth_rewrite 2 [← hturns]
  rw [List.map_map]
  rfl

/-! ## Putting the file together -/

theorem shadowingEvents_eq (schemas : List String) (items : List (String × String)) :
    shadowingEvents schemas items =
      (items.filter fun d ↦ schemas.contains d.1).map fun d ↦ .report ⟨"", .shadowsSchema d.1⟩ :=
  rfl

/-- Each hoisted declaration that has the name of a schema is reported. -/
theorem length_reports_shadowingEvents (schemas : List String) (items : List (String × String)) :
    (reports (shadowingEvents schemas items)).length =
      (items.filter fun d ↦ schemas.contains d.1).length := by
  rw [shadowingEvents_eq]
  induction items.filter fun d ↦ schemas.contains d.1 with
  | nil => rfl
  | cons d rest ih =>
    rw [List.map_cons, reports_cons, List.length_append, ih, List.length_cons, Nat.add_comm]
    rfl

theorem registrations_shadowingEvents (schemas : List String) (items : List (String × String)) :
    registrations (shadowingEvents schemas items) = [] := by
  rw [shadowingEvents_eq]
  induction items.filter fun d ↦ schemas.contains d.1 with
  | nil => rfl
  | cons d rest ih =>
    rw [List.map_cons, registrations_cons, ih]
    rfl

/-- The run behind what is said of hoisted declarations that are in the way. -/
def closing (declared : List (String × String)) (r : Run) : Run :=
  r.applyAll (shadowingEvents (declaredTypes declared) r.items)

theorem of_runFrom_putTogether_eq_ok
    (h : (putTogether env commandLine declared).runFrom r = (.ok file, r')) :
    head env.options commandLine (closing declared r) = .ok file.head ∧
      file.hoisted = hoisted (declaredTypes declared) (closing declared r).items ∧
      file.declared = declared ∧
      r' = (closing declared r).applyAll ((summaryLog (closing declared r)).map .note) := by
  unfold putTogether at h
  rw [runFrom_bind_of_ok (runFrom_get r)] at h
  obtain ⟨_, shown, htell, h⟩ := of_runFrom_bind_eq_ok h
  have hshown : shown = closing declared r := of_runFrom_tell_eq_ok htell
  rw [hshown, runFrom_bind_of_ok (runFrom_get _)] at h
  obtain ⟨front, _, hfront, h⟩ := of_runFrom_bind_eq_ok h
  rw [runFrom_liftM, Prod.mk.injEq] at hfront
  obtain ⟨hfront, rfl⟩ := hfront
  rw [runFrom_bind_of_ok (runFrom_tell_notes _ _)] at h
  cases h
  exact ⟨hfront, rfl, rfl, rfl⟩

theorem grows_putTogether : Grows (putTogether env commandLine declared) := by
  refine grows_get.bind fun run ↦ (grows_tell _).bind fun _ ↦ grows_get.bind fun run ↦ ?_
  exact (grows_liftM _).bind fun _ ↦ (grows_tell _).bind fun _ ↦ grows_pure _

/-! ## The whole course -/

variable {w : Json} {log : List Log.Record}

/-- The run in which the first entry is emitted. -/
def opening (log : List Log.Record) (r : Run) : Run := r.applyAll (log.map .note)

/-- The run in which all entries have been emitted and the failures among them are told. -/
def emitted (env : Environment) (es : List Entry) (r : Run) : Run :=
  r.applyAll (emissionEvents env es r ++ failureEvents (outcomes env es r))

/-- Behind the emission of entries come their failures, and then the file. -/
theorem runFrom_assemble (hlog : startLog w es.length = .ok log) (r : Run) :
    (assemble env commandLine (.ok w) es).runFrom r =
      (Step.tell (failureEvents (outcomes env es (opening log r))) >>= fun _ ↦
        putTogether env commandLine (results (outcomes env es (opening log r)))).runFrom
        ((opening log r).applyAll (emissionEvents env es (opening log r))) := by
  rw [assemble, runFrom_bind_of_ok (runFrom_lift_ok w r), emitAll, runTasks, hlog, bind_assoc,
    runFrom_bind_of_ok (runFrom_lift_ok log r), bind_assoc,
    runFrom_bind_of_ok (runFrom_tell_notes log r), bind_assoc,
    runFrom_bind_of_ok (runFrom_get _), ← run_emission, opening, outcomes]
  obtain ⟨outcomes, run⟩ := runAll (emitEntry env) es (r.applyAll (log.map .note))
  dsimp only
  rw [bind_assoc, runFrom_bind_of_ok (runFrom_set run _), bind_assoc]
  rfl

theorem runFrom_assemble_of_unknown_workers (e : Mismatch) (es : List Entry) (r : Run) :
    (assemble env commandLine (.error e) es).runFrom r = (.error (.mismatch e), r) := by
  rw [assemble, runFrom_bind_of_error (runFrom_lift_error e r)]

/-- Where nothing can be said of the workers no entry is emitted. -/
theorem runFrom_assemble_of_error {e : Mismatch} (hlog : startLog w es.length = .error e)
    (r : Run) : (assemble env commandLine (.ok w) es).runFrom r = (.error (.mismatch e), r) := by
  rw [assemble, runFrom_bind_of_ok (runFrom_lift_ok w r), emitAll, runTasks, hlog, bind_assoc,
    runFrom_bind_of_error (runFrom_lift_error e r)]

/-- How the run and the file of a course come about that gets a file. -/
theorem of_runFrom_assemble_eq_ok
    (h : (assemble env commandLine (.ok w) es).runFrom r = (.ok file, r')) :
    ∃ log, startLog w es.length = .ok log ∧
      (putTogether env commandLine (results (outcomes env es (opening log r)))).runFrom
        (emitted env es (opening log r)) = (.ok file, r') := by
  cases hlog : startLog w es.length with
  | error e =>
    rw [runFrom_assemble_of_error hlog] at h
    cases h
  | ok log =>
    rw [runFrom_assemble hlog] at h
    obtain ⟨_, between, htell, hfile⟩ := of_runFrom_bind_eq_ok h
    have hbetween : between = emitted env es (opening log r) := by
      rw [of_runFrom_tell_eq_ok htell, emitted, Run.applyAll_append]
    rw [hbetween] at hfile
    exact ⟨log, rfl, hfile⟩

/-! ## Clean courses -/

/-- A course that adds no issue to a run that has none. -/
structure Clean (env : Environment) (es : List Entry) (r : Run) : Prop where
  /-- There is no issue to begin with. -/
  count : r.issues.count = 0
  /-- Emission adds none. -/
  recorded : r.recorded (emissionEvents env es r) = []
  /-- No entry fails. -/
  succeeded : failures (outcomes env es r) = []
  /-- No hoisted declaration has the name of a schema. -/
  unshadowed : shadowingEvents (declaredTypes (results (outcomes env es r)))
    (r.applyAll (emissionEvents env es r)).items = []

theorem failureEvents_eq_nil {outcomes : List Outcome} (h : failures outcomes = []) :
    failureEvents outcomes = [] := by
  rw [failureEvents, h]
  rfl

theorem Clean.emitted_eq (h : Clean env es r) :
    emitted env es r = r.applyAll (emissionEvents env es r) := by
  rw [emitted, failureEvents_eq_nil h.succeeded, List.append_nil]

theorem Clean.count_emitted (h : Clean env es r) : (emitted env es r).issues.count = 0 := by
  rw [h.emitted_eq, Run.count_applyAll_eq_length_recorded, h.recorded, h.count]
  rfl

theorem hoisted_eq_self {schemas : List String} {items : List (String × String)}
    (h : shadowingEvents schemas items = []) : hoisted schemas items = items := by
  rw [shadowingEvents_eq, List.map_eq_nil_iff, List.filter_eq_nil_iff] at h
  rw [hoisted, List.filter_eq_self]
  intro d hd
  simpa using h d hd

theorem summaryLog_eq_nil (h : r.issues.count = 0) : summaryLog r = [] := by
  have hempty : r.issues.isEmpty = true := decide_eq_true h
  rw [summaryLog, if_pos hempty]

theorem runFrom_putTogether_of_clean (hcount : r.issues.count = 0)
    (hunshadowed : shadowingEvents (declaredTypes declared) r.items = []) :
    (putTogether env commandLine declared).runFrom r =
      ((head env.options commandLine r).map fun front ↦
        { head := front, hoisted := r.items, declared }, r) := by
  rw [putTogether, runFrom_bind_of_ok (runFrom_get r), hunshadowed,
    runFrom_bind_of_ok (runFrom_tell_nil r), runFrom_bind_of_ok (runFrom_get r)]
  have hhead := runFrom_liftM (head env.options commandLine r) r
  cases hfront : head env.options commandLine r with
  | error e =>
    rw [hfront] at hhead
    rw [runFrom_bind_of_error hhead]
    rfl
  | ok front =>
    rw [hfront] at hhead
    rw [runFrom_bind_of_ok hhead, summaryLog_eq_nil hcount, List.map_nil,
      runFrom_bind_of_ok (runFrom_tell_nil r), hoisted_eq_self hunshadowed]
    rfl

/-- The file and the run of a clean course. -/
theorem runFrom_assemble_of_clean (hlog : startLog w es.length = .ok log)
    (h : Clean env es (opening log r)) :
    (assemble env commandLine (.ok w) es).runFrom r =
      ((head env.options commandLine (emitted env es (opening log r))).map fun front ↦
        { head := front
          hoisted := (emitted env es (opening log r)).items
          declared := results (outcomes env es (opening log r)) },
        emitted env es (opening log r)) := by
  have hunshadowed := h.unshadowed
  rw [← h.emitted_eq] at hunshadowed
  rw [runFrom_assemble hlog, failureEvents_eq_nil h.succeeded, ← h.emitted_eq,
    runFrom_bind_of_ok (runFrom_tell_nil _),
    runFrom_putTogether_of_clean h.count_emitted hunshadowed]

theorem unshadowed_of_count_eq_zero
    (h : ((putTogether env commandLine declared).runFrom r).2.issues.count = 0) :
    shadowingEvents (declaredTypes declared) r.items = [] := by
  rw [putTogether, runFrom_bind_of_ok (runFrom_get r)] at h
  have htell : ((Step.tell (shadowingEvents (declaredTypes declared) r.items)).runFrom
      r).2.issues.count = 0 := by
    refine count_eq_zero_of_bind (fun _ ↦ ?_) h
    refine grows_get.bind fun run ↦ (grows_liftM _).bind fun _ ↦ (grows_tell _).bind fun _ ↦ ?_
    exact grows_pure _
  have hstart : r.issues.count = 0 := (grows_tell _).count_eq_zero htell
  have hrecorded := recorded_eq_nil_of_count_tell (htell.trans hstart.symm)
  have hlength := length_reports_shadowingEvents (declaredTypes declared) r.items
  rw [(Run.recorded_eq_nil_iff.mp hrecorded).1, List.length_nil] at hlength
  rw [shadowingEvents_eq, List.length_eq_zero_iff.mp hlength.symm, List.map_nil]

/-- A course at the end of which there is no issue was clean. -/
theorem clean_of_count_eq_zero (hlog : startLog w es.length = .ok log)
    (h : ((assemble env commandLine (.ok w) es).runFrom r).2.issues.count = 0) :
    Clean env es (opening log r) := by
  rw [runFrom_assemble hlog] at h
  generalize opening log r = start at h ⊢
  have htell : ((Step.tell (failureEvents (outcomes env es start))).runFrom
      (start.applyAll (emissionEvents env es start))).2.issues.count = 0 :=
    count_eq_zero_of_bind (fun _ ↦ grows_putTogether) h
  have hemission : (start.applyAll (emissionEvents env es start)).issues.count = 0 :=
    (grows_tell _).count_eq_zero htell
  have hsucceeded : failures (outcomes env es start) = [] := by
    have hrecorded := recorded_eq_nil_of_count_tell (htell.trans hemission.symm)
    rw [← reports_failureEvents]
    exact (Run.recorded_eq_nil_iff.mp hrecorded).1
  have hcount := Run.count_applyAll_eq_length_recorded start (emissionEvents env es start)
  rw [hemission] at hcount
  rw [failureEvents_eq_nil hsucceeded, runFrom_bind_of_ok (runFrom_tell_nil _)] at h
  refine ⟨by omega, List.length_eq_zero_iff.mp (by omega), hsucceeded, ?_⟩
  exact unshadowed_of_count_eq_zero h

/-- Whether a course is clean shows in the number of issues. -/
theorem count_assemble_eq_zero_iff (hlog : startLog w es.length = .ok log) :
    ((assemble env commandLine (.ok w) es).runFrom r).2.issues.count = 0 ↔
      Clean env es (opening log r) := by
  refine ⟨clean_of_count_eq_zero hlog, fun h ↦ ?_⟩
  rw [runFrom_assemble_of_clean hlog h]
  exact h.count_emitted

/-! ## Turns of a clean course -/

theorem recorded_eq_nil_of_mem_turns {t : Entry × Run}
    (h : r.recorded (emissionEvents env es r) = []) (ht : t ∈ turns (emitEntry env) es r) :
    t.2.recorded (t.2.undergone (t.1.declaration env)) = [] := by
  induction es generalizing r with
  | nil => cases ht
  | cons e rest ih =>
    rw [emissionEvents_cons, Run.recorded_append, List.append_eq_nil_iff] at h
    rw [turns, List.mem_cons] at ht
    rcases ht with rfl | ht
    · exact h.1
    · have hrest := h.2
      rw [← run_emitEntry] at hrest
      exact ih hrest ht

/-- In a turn of a clean course the emission is taken in as it is. -/
theorem emitEntry_eq_of_recorded_eq_nil {e : Entry}
    (h : r.recorded (r.undergone (e.declaration env)) = []) :
    emitEntry env e r =
        (⟨e.name, (e.declaration env r.memory).text,
          (e.declaration env r.memory).failure?.map Mismatch.message⟩,
          r.applyAll (e.declaration env r.memory).events) ∧
      r.undergone (e.declaration env) = (e.declaration env r.memory).events := by
  have hcount : (r.take (e.declaration env)).run.issues.count = r.issues.count := by
    rw [Run.run_take, Run.count_applyAll_eq_length_recorded, h]
    rfl
  obtain ⟨htake, hundergone, -⟩ := Run.take_eq_of_count_eq hcount
  refine ⟨?_, hundergone⟩
  rw [emitEntry, htake]

/-- **Turns of a clean course.** Every emission is taken in as it is, and ends by itself. -/
theorem Clean.turn (h : Clean env es r) {t : Entry × Run}
    (ht : t ∈ turns (emitEntry env) es r) :
    (emitEntry env t.1 t.2).1 = ⟨t.1.name, (t.1.declaration env t.2.memory).text, none⟩ ∧
      t.2.undergone (t.1.declaration env) = (t.1.declaration env t.2.memory).events ∧
      (t.1.declaration env t.2.memory).failure? = none := by
  have hrecorded := recorded_eq_nil_of_mem_turns h.recorded ht
  obtain ⟨hemit, hundergone⟩ := emitEntry_eq_of_recorded_eq_nil hrecorded
  have hmem : (emitEntry env t.1 t.2).1 ∈ outcomes env es r := by
    rw [outcomes_eq_map]
    exact List.mem_map_of_mem ht
  have hsuccess := failures_eq_nil_iff.mp h.succeeded _ hmem
  rw [hemit] at hsuccess
  have hended : (t.1.declaration env t.2.memory).failure? = none :=
    Option.map_eq_none_iff.mp hsuccess
  refine ⟨?_, hundergone, hended⟩
  rw [hemit, hended]
  rfl

end SchemaTypes.Generation
