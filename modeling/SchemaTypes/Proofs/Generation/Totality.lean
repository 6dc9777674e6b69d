import SchemaTypes.Proofs.Emission.Completion
import SchemaTypes.Proofs.Generation.Account
import SchemaTypes.Proofs.Schema.WellTyped
import SchemaTypes.Proofs.Settings

/-!
# Generation gets to its end

A well-typed document can be loaded, and with a well-typed configuration and well-typed tables a
file comes of it (`generate_total`). No schema fails on the way, and no issue tells of a failure:
what is wrong is wrong with the document, be it a reference that leads nowhere or two types of one
name.

The step is that an untroubled run takes the declaration of a textual schema in to its end and stays
untroubled (`untroubled_emitEntry`). So it does for all schemas in turn, and with what is said
before and behind them.
-/

namespace SchemaTypes.Generation

open Event Schedule Step

variable {env : Environment} {limit : Json} {r : Run} {es : List Entry} {ignored : List String}

/-! ## Events outside of emission -/

theorem harmless_note (records : List Log.Record) :
    ∀ event ∈ records.map Event.note, event.Harmless := by
  intro event hevent
  obtain ⟨record, -, rfl⟩ := List.mem_map.mp hevent
  exact .note record

theorem harmless_choose (taken : List (String × String)) (xs : List (String × Schema)) :
    ∀ event ∈ (choose env ignored taken xs).2, event.Harmless := by
  intro event hevent
  obtain ⟨record, rfl⟩ | ⟨_, _, _, rfl⟩ := of_mem_events_choose hevent
  · exact .note record
  · exact .report nofun

theorem harmless_shadowingEvents (schemas : List String) (items : List (String × String)) :
    ∀ event ∈ shadowingEvents schemas items, event.Harmless := by
  intro event hevent
  obtain ⟨d, -, rfl⟩ := List.mem_map.mp hevent
  exact .report nofun

/-! ## Emission -/

section Emission

variable (henv : env.Sound) (htables : env.correlator.Textual) (hlimit : limit.isNumber = true)

include henv htables hlimit

/-- An untroubled run takes the declaration of a textual schema in to its end. -/
theorem untroubled_emitEntry {e : Entry} (he : e.schema.Textual) (hr : r.Untroubled limit) :
    (emitEntry env e r).1.failure = none ∧ (emitEntry env e r).2.Untroubled limit := by
  have hnumber : r.issues.limit.isNumber = true := by rwa [hr.limit_eq]
  obtain ⟨hended, hharmless⟩ :=
    Schema.completes_emitNamed henv htables he e.name hr.textual_memory
  rw [emitEntry, Run.take_eq_of_isNumber hnumber, Entry.declaration, hended]
  exact ⟨rfl, hr.applyAll hharmless⟩

/-- **No schema fails.** The induction is on the schemas that are left, and the run stays untroubled
from one to the next. -/
theorem untroubled_emission (hes : ∀ e ∈ es, e.schema.Textual) (hr : r.Untroubled limit) :
    (∀ outcome ∈ outcomes env es r, outcome.failure = none) ∧
      (r.applyAll (emissionEvents env es r)).Untroubled limit := by
  rw [← run_emission, outcomes]
  induction es generalizing r with
  | nil => exact ⟨List.forall_mem_nil _, hr⟩
  | cons e rest ih =>
    obtain ⟨he, hrest⟩ := List.forall_mem_cons.mp hes
    obtain ⟨hended, hnext⟩ := untroubled_emitEntry henv htables hlimit he hr
    obtain ⟨hothers, hlast⟩ := ih hrest hnext
    exact ⟨List.forall_mem_cons.mpr ⟨hended, hothers⟩, hlast⟩

end Emission

/-! ## The file -/

section File

variable (hlimit : limit.isNumber = true) (commandLine : String)

include hlimit

/-- An untroubled run gets a file. -/
theorem untroubled_putTogether (declared : List (String × String)) (hr : r.Untroubled limit) :
    ∃ file run, (putTogether env (.ok commandLine) declared).runFrom r = (.ok file, run) ∧
      run.Untroubled limit := by
  have hnumber : r.issues.limit.isNumber = true := by rwa [hr.limit_eq]
  have hclosing := hr.applyAll (harmless_shadowingEvents (declaredTypes declared) r.items)
  rw [putTogether, runFrom_bind_of_ok (runFrom_get r),
    runFrom_bind_of_ok (runFrom_tell_of_isNumber hnumber _), runFrom_bind_of_ok (runFrom_get _)]
  generalize r.applyAll (shadowingEvents (declaredTypes declared) r.items) = last at hclosing ⊢
  -- Only the list of imports could be in the way: it sorts what may be no texts.
  obtain ⟨keys, hkeys⟩ := hclosing.exists_imports_eq_ok
  have hhead : ∃ front, head env.options (.ok commandLine) last = .ok front := by
    rw [head, hkeys, remark]
    split <;> exact ⟨_, rfl⟩
  obtain ⟨front, hfront⟩ := hhead
  have hlift := runFrom_liftM (head env.options (.ok commandLine) last) last
  rw [hfront] at hlift ⊢
  rw [runFrom_bind_of_ok hlift, runFrom_bind_of_ok (runFrom_tell_notes _ _)]
  exact ⟨_, _, rfl, hclosing.applyAll (harmless_note _)⟩

variable {w : Json} (henv : env.Sound) (htables : env.correlator.Textual)

include henv htables

theorem untroubled_assemble (hlog : ∃ log, startLog w es.length = .ok log)
    (hes : ∀ e ∈ es, e.schema.Textual) (hr : r.Untroubled limit) :
    ∃ file run, (assemble env (.ok commandLine) (.ok w) es).runFrom r = (.ok file, run) ∧
      run.Untroubled limit := by
  obtain ⟨log, hlog⟩ := hlog
  have hopening : (opening log r).Untroubled limit := hr.applyAll (harmless_note log)
  obtain ⟨hended, hemitted⟩ := untroubled_emission henv htables hlimit hes hopening
  rw [runFrom_assemble hlog, failureEvents_eq_nil (failures_eq_nil_iff.mpr hended),
    runFrom_bind_of_ok (runFrom_tell_nil _)]
  exact untroubled_putTogether hlimit commandLine _ hemitted

omit hlimit in
/-- In a sound environment with textual tables a file comes of the document, and no schema fails. -/
theorem untroubled_generateFile (hlimit : env.options.maxReportedErrors.isNumber = true)
    (hignored : env.options.ignoreSchemas = .ok ignored)
    (hlog : ∀ tasks, ∃ log, startLog w tasks = .ok log) :
    (∀ outcome ∈ documentOutcomes env ignored w, outcome.failure = none) ∧
      ∃ file run, generateFile env (.ok commandLine) (.ok w) = (.ok file, run) ∧
        run.Untroubled env.options.maxReportedErrors := by
  have hes : ∀ e ∈ (entries env ignored).1, e.schema.Textual := forall_mem_entries henv.document
  have hentries : ∀ event ∈ (entries env ignored).2, event.Harmless := harmless_choose [] _
  have hchosen := (Run.untroubled_start env.options.maxReportedErrors).applyAll hentries
  have hnoted := hchosen.applyAll (harmless_note [startRecord (entries env ignored).1])
  have hbeginning : (beginning env ignored w).Untroubled env.options.maxReportedErrors := by
    rw [beginning, Run.applyAll_append]
    exact hnoted.applyAll (harmless_note _)
  refine ⟨(untroubled_emission henv htables hlimit hes hbeginning).1, ?_⟩
  obtain ⟨file, run, hfile, hrun⟩ :=
    untroubled_assemble hlimit commandLine henv htables (hlog _) hes hnoted
  refine ⟨file, run, ?_, hrun⟩
  rw [generateFile, compose, hignored, runFrom_bind_of_ok (runFrom_lift_ok ignored _)]
  dsimp only
  rw [runFrom_bind_of_ok (runFrom_tell_of_isNumber hlimit _)]
  exact (runFrom_bind_of_ok (runFrom_tell_notes [startRecord _] _) _).trans hfile

end File

/-! ## Well-typed input -/

/-- A textual document, usable settings and well-typed tables make a sound environment. -/
theorem exists_environment_eq_ok {document : Document} (hdocument : document.Textual)
    {options : Options} (hpath : options.optionImportPath.IsText)
    (hnames : ∀ name, ∃ isEnum, options.isEnumName name = .ok isEnum) {tables : List DocTable}
    (htables : ∀ t ∈ tables, t.WellTyped) :
    ∃ env, environment document options tables = .ok env ∧ env.options = options ∧ env.Sound ∧
      env.correlator.Textual := by
  obtain ⟨correlator, hcorrelator, hcells⟩ := Correlator.exists_ofTables_eq_ok htables
  rw [environment, hcorrelator]
  exact ⟨_, rfl, rfl, ⟨hdocument, hpath, hnames⟩, hcells⟩

/-- Well-typed input makes a sound environment, and an untroubled run gets a file in it. -/
theorem exists_untroubled {value : Json} {config : Config} {tables : List DocTable}
    (hvalue : Document.WellTyped value) (hconfig : config.WellTyped)
    (htables : ∀ t ∈ tables, t.WellTyped) :
    ∃ document env ignored,
      Document.load value = .ok document ∧ config.options = .ok env.options ∧
      environment document env.options tables = .ok env ∧
      env.options.ignoreSchemas = .ok ignored ∧ env.Sound ∧
      ∀ (commandLine : String) (processors : Nat), ∃ w file run,
        config.workers processors = .ok w ∧
        (∀ outcome ∈ documentOutcomes env ignored w, outcome.failure = none) ∧
        generateFile env (.ok commandLine) (.ok w) = (.ok file, run) ∧
        run.Untroubled env.options.maxReportedErrors := by
  obtain ⟨document, hload, hdocument⟩ := Document.exists_load_eq_ok hvalue
  obtain ⟨options, hoptions, hpath, hlimit, ⟨ignored, hignored⟩, hnames⟩ :=
    hconfig.exists_options_eq_ok
  obtain ⟨env, henv, rfl, hsound, hcells⟩ :=
    exists_environment_eq_ok hdocument hpath hnames htables
  refine ⟨document, env, ignored, hload, hoptions, henv, hignored, hsound, ?_⟩
  intro commandLine processors
  obtain ⟨n, hworkers⟩ := hconfig.exists_workers_eq_ok processors
  obtain ⟨hended, file, run, hfile, hrun⟩ := untroubled_generateFile commandLine hsound hcells
    hlimit hignored (exists_startLog_eq_ok n)
  exact ⟨.int n, file, run, hworkers, hended, hfile, hrun⟩

/-- **Generation is total on well-typed input.** A well-typed document loads, and a file comes of
it, whatever the well-typed configuration and tables, the command line and the number of processors.
No schema fails, and all issues are of classes that say what is wrong with the document, also those
that are counted but not kept. -/
theorem generate_total {value : Json} {config : Config} {tables : List DocTable}
    (hvalue : Document.WellTyped value) (hconfig : config.WellTyped)
    (htables : ∀ t ∈ tables, t.WellTyped) :
    ∃ document options env ignored,
      Document.load value = .ok document ∧ config.options = .ok options ∧
      environment document options tables = .ok env ∧ options.ignoreSchemas = .ok ignored ∧
      ∀ (commandLine : String) (processors : Nat), ∃ w code run,
        config.workers processors = .ok w ∧
        generate env (.ok commandLine) (.ok w) = (.ok code, run) ∧
        (∀ outcome ∈ documentOutcomes env ignored w, outcome.failure = none) ∧
        ∃ issues : List Issue,
          run.issues = issues.foldl Issues.add (.empty options.maxReportedErrors) ∧
          ∀ issue ∈ issues, issue.cause.kind ∈ [.invalidTypes, .missingItems, .unsupported,
            .unknownReference, .nameCollision] := by
  obtain ⟨document, env, ignored, hload, hoptions, henv, hignored, -, hfiles⟩ :=
    exists_untroubled hvalue hconfig htables
  refine ⟨document, env.options, env, ignored, hload, hoptions, henv, hignored, ?_⟩
  intro commandLine processors
  obtain ⟨w, file, run, hworkers, hended, hfile, hrun⟩ := hfiles commandLine processors
  obtain ⟨issues, hissues, hkinds⟩ := hrun.exists_issues_eq
  refine ⟨w, file.text, run, hworkers, ?_, hended, issues, hissues, fun issue hissue ↦ ?_⟩
  · rw [generate, hfile]
    rfl
  · have hkind := hkinds issue hissue
    cases hcause : issue.cause.kind with
    | general => exact absurd hcause hkind
    | _ => simp

/-- A document whose schemas refer to one another in a circle, and to nothing at all. -/
def circularDocument : Json :=
  .object [("components", .object [("schemas", .object [
    ("Left", .object [("$ref", .text "#/components/schemas/Right")]),
    ("Right", .object [("$ref", .text "#/components/schemas/Left")]),
    ("Nobody", .object [("$ref", .text "#/components/schemas/Missing")]),
    ("Guild", .object [("type", .text "object"), ("properties", .object [
      ("owner_id", .object [("type", .list [.text "string", .text "null"])]),
      ("left", .object [("$ref", .text "#/components/schemas/Left")])])])])])]

theorem wellTyped_circularDocument : Document.WellTyped circularDocument := by
  have hid : Schema.WellTyped (.object [("type", .list [.text "string", .text "null"])]) :=
    .object (by constructor <;> simp [Json.IsList]) (by simp) (by simp) (by simp)
  have hguild : Schema.WellTyped (.object [("type", .text "object"), ("properties", .object [
      ("owner_id", .object [("type", .list [.text "string", .text "null"])]),
      ("left", .object [("$ref", .text "#/components/schemas/Left")])])]) := by
    refine .object (by constructor <;> simp [Json.IsObject]) ?_ (by simp) (by simp)
    rintro _ ⟨⟩ _ ⟨⟩
    exact List.forall_mem_cons.mpr ⟨hid, List.forall_mem_singleton.mpr (.reference _)⟩
  refine ⟨_, rfl, _, _, rfl, rfl, ?_, by simp⟩
  exact List.forall_mem_cons.mpr ⟨.reference _, List.forall_mem_cons.mpr ⟨.reference _,
    List.forall_mem_cons.mpr ⟨.reference _, List.forall_mem_singleton.mpr hguild⟩⟩⟩

/-- References that lead nowhere or in a circle are in the way of nothing, commented or not. -/
theorem generate_total_circular :
    ∃ document options env,
      Document.load circularDocument = .ok document ∧
      (Config.default.set .docComments (.bool true)).options = .ok options ∧
      environment document options [.ofGuild] = .ok env ∧
      ∃ code run, generate env (.ok "openapi_to_code") (.ok (.int 4)) = (.ok code, run) ∧
        ∃ issues : List Issue,
          run.issues = issues.foldl Issues.add (.empty options.maxReportedErrors) ∧
          ∀ issue ∈ issues, issue.cause.kind ∈ [.invalidTypes, .missingItems, .unsupported,
            .unknownReference, .nameCollision] := by
  have hconfig : (Config.default.set .docComments (.bool true)).WellTyped :=
    Config.wellTyped_default.set ⟨true, rfl⟩
  have htable : DocTable.ofGuild.WellTyped := by
    constructor <;> simp [DocTable.Textual, DocTable.ofGuild]
  obtain ⟨document, options, env, ignored, hload, hoptions, henv, -, hgenerate⟩ :=
    generate_total wellTyped_circularDocument hconfig (List.forall_mem_singleton.mpr htable)
  refine ⟨document, options, env, hload, hoptions, henv, ?_⟩
  obtain ⟨w, code, run, hworkers, hfile, -, issues, hissues, hkinds⟩ :=
    hgenerate "openapi_to_code" 4
  obtain rfl : .int 4 = w := Except.ok.inj hworkers
  exact ⟨code, run, hfile, issues, hissues, hkinds⟩

end SchemaTypes.Generation
