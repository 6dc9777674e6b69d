import SchemaTypes.Proofs.Emission.Isolation
import SchemaTypes.Proofs.Generation.Choice
import SchemaTypes.Proofs.Generation.Course
import SchemaTypes.Proofs.Run.Order

/-!
# The order of tasks

Entries are emitted into one run, and what a run makes of an emission depends on what it holds. Yet
the order of the entries does not show in the file of a clean course.

Without documentation comments an emission tells the same events whatever the run remembers. So as
long as no issue is recorded, the events of a course are those of its entries, one after the other,
and in another order the events are a permutation (`emissionEvents_eq_flatMap`). That none is
recorded does not depend on the order, nor does what the run holds then, so that a clean course is
clean in any order (`Clean.of_perm`) and comes to the same file (`order_independent`).
-/

namespace SchemaTypes.Generation

open Event Schedule Step

variable {env : Environment} (hdoc : env.options.docComments = false)
  {es fs : List Entry} {r : Run}

/-! ## What an entry tells and leaves behind -/

/-- The events that an entry tells where nothing is remembered. -/
def Entry.events (env : Environment) (e : Entry) : List Event := (e.declaration env []).events

/-- How the task of an entry ends that is taken in as it is. -/
def Entry.outcome (env : Environment) (e : Entry) : Outcome :=
  ⟨e.name, (e.declaration env []).text, (e.declaration env []).failure?.map Mismatch.message⟩

include hdoc

theorem declaration_apply (e : Entry) (memory : Correlator.Memory) :
    e.declaration env memory =
      ⟨(e.declaration env []).acts, memory, (e.declaration env []).result⟩ :=
  Schema.memoryless_emitNamed hdoc e.name e.schema memory

theorem events_declaration (e : Entry) (memory : Correlator.Memory) :
    (e.declaration env memory).events = e.events env := by
  rw [declaration_apply hdoc]
  rfl

/-- An entry whose events add no issue undergoes all of them. -/
theorem undergone_declaration {e : Entry} (h : r.recorded (e.events env) = []) :
    r.undergone (e.declaration env) = e.events env := by
  have hevents := events_declaration hdoc e r.memory
  rw [← hevents] at h ⊢
  exact Run.happening_eq_of_recorded_eq_nil h

/-- An entry whose events add no issue is emitted as it is. -/
theorem emitEntry_eq {e : Entry} (h : r.recorded (e.events env) = []) :
    emitEntry env e r = (e.outcome env, r.applyAll (e.events env)) := by
  have hrecorded : r.recorded (r.undergone (e.declaration env)) = [] := by
    rw [undergone_declaration hdoc h]
    exact h
  rw [(emitEntry_eq_of_recorded_eq_nil hrecorded).1, events_declaration hdoc, Entry.outcome,
    declaration_apply hdoc]
  rfl

/-! ## What entries tell in turn -/

/-- While no issue is recorded, the events of a course are those of its entries. -/
theorem emissionEvents_eq_flatMap (h : r.recorded (es.flatMap (Entry.events env)) = []) :
    emissionEvents env es r = es.flatMap (Entry.events env) := by
  induction es generalizing r with
  | nil => rfl
  | cons e rest ih =>
    rw [List.flatMap_cons, Run.recorded_append, List.append_eq_nil_iff] at h
    rw [emissionEvents_cons, undergone_declaration hdoc h.1, emitEntry_eq hdoc h.1, ih h.2,
      List.flatMap_cons]

/-- While no issue is recorded, the outcomes of a course are those of its entries. -/
theorem outcomes_eq_map_outcome (h : r.recorded (es.flatMap (Entry.events env)) = []) :
    outcomes env es r = es.map (Entry.outcome env) := by
  induction es generalizing r with
  | nil => rfl
  | cons e rest ih =>
    rw [List.flatMap_cons, Run.recorded_append, List.append_eq_nil_iff] at h
    rw [outcomes, runAll, emitEntry_eq hdoc h.1, List.map_cons, ← ih h.2, outcomes]

/-- A course that records no issue is made of events that record none. -/
theorem recorded_flatMap_eq_nil (h : r.recorded (emissionEvents env es r) = []) :
    r.recorded (es.flatMap (Entry.events env)) = [] := by
  induction es generalizing r with
  | nil => rfl
  | cons e rest ih =>
    rw [emissionEvents_cons, Run.recorded_append, List.append_eq_nil_iff] at h
    obtain ⟨hfirst, hrest⟩ := h
    have hundergone := (emitEntry_eq_of_recorded_eq_nil hfirst).2
    rw [events_declaration hdoc] at hundergone
    rw [hundergone] at hfirst
    rw [← run_emitEntry] at hrest
    have hlater := ih hrest
    rw [emitEntry_eq hdoc hfirst] at hlater
    rw [List.flatMap_cons, Run.recorded_append, hfirst, List.nil_append]
    exact hlater

/-! ## Clean courses in any order -/

theorem Clean.recorded_flatMap (h : Clean env es r) :
    r.recorded (es.flatMap (Entry.events env)) = [] :=
  recorded_flatMap_eq_nil hdoc h.recorded

theorem Clean.recorded_flatMap_of_perm (h : Clean env es r) (hperm : es.Perm fs) :
    r.recorded (fs.flatMap (Entry.events env)) = [] :=
  Run.recorded_eq_nil_of_perm (hperm.flatMap_right _) (h.recorded_flatMap hdoc)

theorem Clean.emissionEvents_perm (h : Clean env es r) (hperm : es.Perm fs) :
    (emissionEvents env es r).Perm (emissionEvents env fs r) := by
  rw [emissionEvents_eq_flatMap hdoc (h.recorded_flatMap hdoc),
    emissionEvents_eq_flatMap hdoc (h.recorded_flatMap_of_perm hdoc hperm)]
  exact hperm.flatMap_right _

theorem Clean.outcomes_perm (h : Clean env es r) (hperm : es.Perm fs) :
    (outcomes env es r).Perm (outcomes env fs r) := by
  rw [outcomes_eq_map_outcome hdoc (h.recorded_flatMap hdoc),
    outcomes_eq_map_outcome hdoc (h.recorded_flatMap_of_perm hdoc hperm)]
  exact hperm.map _

theorem Clean.failures_of_perm (h : Clean env es r) (hperm : es.Perm fs) :
    failures (outcomes env fs r) = [] := by
  refine failures_eq_nil_iff.mpr fun o ho ↦ ?_
  exact failures_eq_nil_iff.mp h.succeeded o ((h.outcomes_perm hdoc hperm).mem_iff.mpr ho)

/-- Entries with different names leave the same texts in any order. -/
theorem Clean.results_eq_of_perm (h : Clean env es r) (hperm : es.Perm fs)
    (hnames : (es.map Entry.name).Nodup) :
    results (outcomes env es r) = results (outcomes env fs r) := by
  have houtcomes := h.outcomes_perm hdoc hperm
  have hnodup : ((outcomes env es r).map Outcome.name).Nodup := by
    rw [names_outcomes]
    exact hnames
  rw [results_eq_sortByName hnodup (failures_eq_nil_iff.mp h.succeeded),
    results_eq_sortByName ((houtcomes.map _).nodup_iff.mp hnodup)
      (failures_eq_nil_iff.mp (h.failures_of_perm hdoc hperm))]
  refine Text.sortByName_eq_of_perm (houtcomes.map _) ?_
  rw [Entries.names, List.map_map]
  exact hnodup

/-- Entries hoist the same declarations in any order. -/
theorem Clean.items_eq_of_perm (h : Clean env es r) (hperm : es.Perm fs)
    (hregistry : (Entries.names r.registry).Nodup) :
    (r.applyAll (emissionEvents env es r)).items =
      (r.applyAll (emissionEvents env fs r)).items :=
  Run.items_eq_of_perm hregistry (h.emissionEvents_perm hdoc hperm) h.recorded

/-- **A clean course is clean in any order.** -/
theorem Clean.of_perm (h : Clean env es r) (hperm : es.Perm fs)
    (hnames : (es.map Entry.name).Nodup) (hregistry : (Entries.names r.registry).Nodup) :
    Clean env fs r where
  count := h.count
  recorded := by
    have hrecorded := h.recorded_flatMap_of_perm hdoc hperm
    rw [emissionEvents_eq_flatMap hdoc hrecorded]
    exact hrecorded
  succeeded := h.failures_of_perm hdoc hperm
  unshadowed := by
    rw [← h.results_eq_of_perm hdoc hperm hnames, ← h.items_eq_of_perm hdoc hperm hregistry]
    exact h.unshadowed

omit hdoc

/-! ## What a generation comes to -/

theorem head_eq_ok_of_perm {options : Options} {commandLine : Except FileTree.PathError String}
    {r₁ r₂ : Run} (h : r₁.required.Perm r₂.required) {front : String}
    (h₁ : head options commandLine r₁ = .ok front) : head options commandLine r₂ = .ok front := by
  cases himports : r₁.imports with
  | error e =>
    rw [head, himports] at h₁
    cases h₁
  | ok keys =>
    rw [head, himports] at h₁
    rw [head, Run.imports_eq_ok_of_perm h himports]
    exact h₁

/-- Two generations come to the same: to the same hoisted declarations, the same packages and the
same file, or both to no list of packages and both to no file. -/
structure SameResult (one other : Except Fault SourceFile × Run) : Prop where
  items : one.2.items = other.2.items
  imports : ∀ keys, one.2.imports = .ok keys ↔ other.2.imports = .ok keys
  file : ∀ file, one.1 = .ok file ↔ other.1 = .ok file

theorem SameResult.refl (one : Except Fault SourceFile × Run) : SameResult one one :=
  ⟨rfl, fun _ ↦ Iff.rfl, fun _ ↦ Iff.rfl⟩

/-- Clean courses that differ in the order of their entries come to the same. -/
theorem Clean.sameResult (hdoc : env.options.docComments = false) (h : Clean env es r)
    (hperm : es.Perm fs) (hnames : (es.map Entry.name).Nodup)
    (hregistry : (Entries.names r.registry).Nodup) (hrequired : r.required.Nodup)
    (commandLine : Except FileTree.PathError String) :
    SameResult
      ((head env.options commandLine (emitted env es r)).map fun front ↦
        ⟨front, (emitted env es r).items, results (outcomes env es r)⟩, emitted env es r)
      ((head env.options commandLine (emitted env fs r)).map fun front ↦
        ⟨front, (emitted env fs r).items, results (outcomes env fs r)⟩, emitted env fs r) := by
  have hother := h.of_perm hdoc hperm hnames hregistry
  have hitems : (emitted env es r).items = (emitted env fs r).items := by
    rw [h.emitted_eq, hother.emitted_eq]
    exact h.items_eq_of_perm hdoc hperm hregistry
  have hpackages : (emitted env es r).required.Perm (emitted env fs r).required := by
    rw [h.emitted_eq, hother.emitted_eq]
    exact Run.required_perm_of_perm hrequired (h.emissionEvents_perm hdoc hperm)
  refine ⟨hitems, Run.imports_eq_ok_iff_of_perm hpackages, fun file ↦ ?_⟩
  dsimp only
  rw [hitems, h.results_eq_of_perm hdoc hperm hnames]
  cases hone : head env.options commandLine (emitted env es r) with
  | ok front => rw [head_eq_ok_of_perm hpackages hone]
  | error e =>
    cases htwo : head env.options commandLine (emitted env fs r) with
    | ok front =>
      rw [head_eq_ok_of_perm hpackages.symm htwo] at hone
      cases hone
    | error e' => constructor <;> intro heq <;> cases heq

/-- **The order of tasks does not matter.** If the entries of a document are emitted into a run in
one order and there is no issue at the end, then there is none in any other order, and both come to
the same. -/
theorem order_independent (hdoc : env.options.docComments = false) {ignored : List String}
    {first second : List Entry} (hfirst : first.Perm (entries env ignored).1)
    (hsecond : second.Perm (entries env ignored).1)
    (commandLine : Except FileTree.PathError String) (workers : Except Mismatch Json)
    (limit : Json) (earlier : List Event)
    (hcount : ((assemble env commandLine workers first).runFrom
      ((Run.start limit).applyAll earlier)).2.issues.count = 0) :
    ((assemble env commandLine workers second).runFrom
        ((Run.start limit).applyAll earlier)).2.issues.count = 0 ∧
      SameResult
        ((assemble env commandLine workers first).runFrom ((Run.start limit).applyAll earlier))
        ((assemble env commandLine workers second).runFrom
          ((Run.start limit).applyAll earlier)) := by
  have hperm : first.Perm second := hfirst.trans hsecond.symm
  have hnames : (first.map Entry.name).Nodup := by
    rw [(hfirst.map Entry.name).nodup_iff]
    exact nodup_names_entries env ignored
  cases workers with
  | error e =>
    rw [runFrom_assemble_of_unknown_workers] at hcount ⊢
    rw [runFrom_assemble_of_unknown_workers]
    exact ⟨hcount, .refl _⟩
  | ok w =>
    cases hlog : startLog w first.length with
    | error e =>
      have hlog' := hlog
      rw [hperm.length_eq] at hlog'
      rw [runFrom_assemble_of_error hlog] at hcount ⊢
      rw [runFrom_assemble_of_error hlog']
      exact ⟨hcount, .refl _⟩
    | ok log =>
      have hlog' := hlog
      rw [hperm.length_eq] at hlog'
      have hclean := clean_of_count_eq_zero hlog hcount
      have hregistry : (Entries.names (opening log
          ((Run.start limit).applyAll earlier)).registry).Nodup := by
        refine Run.nodup_names_registry_applyAll (Run.nodup_names_registry_applyAll ?_ _) _
        exact List.nodup_nil
      have hrequired : (opening log ((Run.start limit).applyAll earlier)).required.Nodup := by
        refine Run.nodup_required_applyAll (Run.nodup_required_applyAll ?_ _) _
        exact List.nodup_nil
      have hother := hclean.of_perm hdoc hperm hnames hregistry
      rw [runFrom_assemble_of_clean hlog hclean, runFrom_assemble_of_clean hlog' hother]
      exact ⟨hother.count_emitted,
        hclean.sameResult hdoc hperm hnames hregistry hrequired commandLine⟩

/-- A document with two schemas that hoist declarations of their own. -/
def pairDocument : Document where
  schemas := [("Guild", .choice "role" "integer"), ("Member", .choice "role" "boolean")]
  responses := []

/-- The two schemas come to the same in the order of their names and the other way round. -/
theorem order_independent_pair :
    (entries (plainEnvironment pairDocument) []).1.length = 2 ∧
      ((assemble (plainEnvironment pairDocument) (.ok "") (.ok (.int 2))
        (entries (plainEnvironment pairDocument) []).1.reverse).runFrom
          ((Run.start (.int 10)).applyAll [])).2.issues.count = 0 ∧
      SameResult
        ((assemble (plainEnvironment pairDocument) (.ok "") (.ok (.int 2))
          (entries (plainEnvironment pairDocument) []).1).runFrom
            ((Run.start (.int 10)).applyAll []))
        ((assemble (plainEnvironment pairDocument) (.ok "") (.ok (.int 2))
          (entries (plainEnvironment pairDocument) []).1.reverse).runFrom
            ((Run.start (.int 10)).applyAll [])) := by
  refine ⟨by decide +kernel, ?_⟩
  have hdoc : (plainEnvironment pairDocument).options.docComments = false := rfl
  have hcount : ((assemble (plainEnvironment pairDocument) (.ok "") (.ok (.int 2))
      (entries (plainEnvironment pairDocument) []).1).runFrom
        ((Run.start (.int 10)).applyAll [])).2.issues.count = 0 := by
    decide +kernel
  exact order_independent hdoc (.refl _) (List.reverse_perm _) _ _ _ _ hcount

end SchemaTypes.Generation
