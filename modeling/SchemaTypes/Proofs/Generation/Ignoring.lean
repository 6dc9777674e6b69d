import SchemaTypes.Proofs.Generation.Blocks
import SchemaTypes.Proofs.Generation.Orders
import SchemaTypes.Proofs.Generation.Reordering

/-!
# Ignored schemas

A list of ignored schemas is looked at once, when schemas are chosen. What a schema emits does not
depend on it (`declaration_ignoring`), not even where the schema refers to an ignored one.

So where there is no issue, ignoring more schemas takes entries out of the course and does nothing
else. A course that is clean stays clean without some of its entries (`Clean.of_subset`): fewer
events happen, and of names under which the same text is registered twice nothing changes but how
often. This is compared on the events of entries, which are the same in every run where
documentation comments are off. What is left of the file is told by `generateFile_ignoring`.
-/

namespace SchemaTypes

open Event

/-! ## Fewer events -/

namespace Run

variable {r r' : Run} {xs ys : List Event}

/-- Events that add no issue add none in a run with the same registry where some of them do not
happen. -/
theorem recorded_eq_nil_of_subset (hregistry : r'.registry = r.registry)
    (hreports : reports ys ⊆ reports xs) (hregistrations : registrations ys ⊆ registrations xs)
    (hxs : r.recorded xs = []) : r'.recorded ys = [] := by
  refine recorded_eq_nil_iff.mpr ⟨?_, fun d hd ↦ ?_⟩
  · rw [(recorded_eq_nil_iff.mp hxs).1] at hreports
    exact List.subset_nil.mp hreports
  have hkept : ∀ other ∈ registrations ys,
      (r.registry.lookup other.1).or ((registrations xs).lookup other.1) = some other.2 := by
    intro other hother
    rw [← lookup_registry_applyAll]
    exact (recorded_eq_nil_iff.mp hxs).2 other (hregistrations hother)
  rw [lookup_registry_applyAll, hregistry]
  cases hr : r.registry.lookup d.1 with
  | some kept =>
    have hsame := hkept d hd
    rwa [hr] at hsame
  | none =>
    -- Whichever text comes first under the name now, it is the one that came first before.
    rw [Option.none_or]
    cases hy : (registrations ys).lookup d.1 with
    | none =>
      rw [List.lookup_eq_none_iff] at hy
      simpa using hy d hd
    | some text =>
      have hfirst := hkept (d.1, text) (Entries.mem_of_lookup hy)
      rw [hkept d hd] at hfirst
      exact hfirst.symm

/-- Fewer registrations leave fewer items. -/
theorem items_subset (hr : (Entries.names r.registry).Nodup)
    (hr' : (Entries.names r'.registry).Nodup) (hregistry : r'.registry = r.registry)
    (hregistrations : registrations ys ⊆ registrations xs) (hxs : r.recorded xs = []) :
    (r'.applyAll ys).items ⊆ (r.applyAll xs).items := by
  rintro ⟨name, text⟩ hd
  rw [items, Text.mem_sortByName] at hd ⊢
  rw [← Entries.lookup_eq_some_iff_mem (nodup_names_registry_applyAll hr' ys),
    lookup_registry_applyAll, hregistry] at hd
  rw [← Entries.lookup_eq_some_iff_mem (nodup_names_registry_applyAll hr xs)]
  cases hkept : r.registry.lookup name with
  | some kept =>
    rw [hkept, Option.some_or] at hd
    rw [lookup_registry_applyAll, hkept, Option.some_or, hd]
  | none =>
    rw [hkept, Option.none_or] at hd
    exact lookup_registry_of_mem hxs (hregistrations (Entries.mem_of_lookup hd))

/-- Where packages are listed, some of them can be listed, too. -/
theorem exists_imports_eq_ok_of_subset (hr' : r'.required.Nodup)
    (hsub : r'.required ⊆ r.required) {keys : List Json.Key} (h : r.imports = .ok keys) :
    ∃ keys', r'.imports = .ok keys' := by
  rw [imports_eq_ok_iff] at h
  by_cases hshort : r'.required.length ≤ 1
  · exact ⟨r'.required, imports_eq_ok_iff.mpr (by rw [if_pos hshort])⟩
  have hlong : ¬ r.required.length ≤ 1 := by
    have hlength := (hr'.subperm hsub).length_le
    omega
  rw [if_neg hlong] at h
  obtain ⟨names, hnames, -⟩ := h
  have htexts : (r'.required.filterMap Json.Key.text?).map .text = r'.required := by
    refine Json.map_text_filterMap_text? fun key hkey ↦ ?_
    have hmem := hsub hkey
    rw [hnames] at hmem
    obtain ⟨name, -, rfl⟩ := List.mem_map.mp hmem
    exact ⟨name, rfl⟩
  refine ⟨(Text.sortNames (r'.required.filterMap Json.Key.text?)).map .text, ?_⟩
  rw [imports_eq_ok_iff, if_neg hshort]
  exact ⟨_, htexts.symm, rfl⟩

end Run

namespace Schedule

/-- Whether anything can be said of the workers is no matter of how many tasks there are. -/
theorem exists_startLog_eq_ok_of_le {w : Json} {m n : Nat} {log : List Log.Record} (hle : m ≤ n)
    (h : startLog w n = .ok log) : ∃ log', startLog w m = .ok log' := by
  by_cases hm : m = 0
  · exact ⟨[], by rw [startLog, if_pos hm]⟩
  have hn : n ≠ 0 := by omega
  rw [startLog, if_neg hn, workers] at h
  refine exists_startLog_eq_ok_of_void_or_number ?_ m
  by_cases hvoid : w.isVoid = true
  · exact .inl hvoid
  · rw [if_neg hvoid] at h
    refine .inr ?_
    cases w with
    | bool b => rfl
    | int k => rfl
    | real x => rfl
    | _ => cases h

end Schedule

namespace Generation

open Schedule Step

variable {env : Environment} {ignored ignored' : List String} {es es' : List Entry} {r r' : Run}
  {commandLine : Except FileTree.PathError String} {file : SourceFile} {run : Run}

/-! ## Fewer entries -/

/-- A clean course stays clean without some of its entries. -/
theorem Clean.of_subset (hdoc : env.options.docComments = false) (h : Clean env es r)
    (hsub : es' ⊆ es) (hnames : (es.map Entry.name).Nodup) (hnames' : (es'.map Entry.name).Nodup)
    (hregistry : (Entries.names r.registry).Nodup) (hsame : r'.registry = r.registry)
    (hcount : r'.issues.count = 0) : Clean env es' r' := by
  have hevents : es'.flatMap (Entry.events env) ⊆ es.flatMap (Entry.events env) := by
    intro event hevent
    obtain ⟨e, he, hmem⟩ := List.mem_flatMap.mp hevent
    exact List.mem_flatMap.mpr ⟨e, hsub he, hmem⟩
  have hrecorded := h.recorded_flatMap hdoc
  have hrecorded' : r'.recorded (es'.flatMap (Entry.events env)) = [] :=
    Run.recorded_eq_nil_of_subset hsame (List.filterMap_subset _ hevents)
      (List.filterMap_subset _ hevents) hrecorded
  have houtcomes : outcomes env es' r' ⊆ outcomes env es r := by
    rw [outcomes_eq_map_outcome hdoc hrecorded, outcomes_eq_map_outcome hdoc hrecorded']
    exact List.map_subset _ hsub
  have hsucceeded : ∀ o ∈ outcomes env es' r', o.failure = none := fun o ho ↦
    failures_eq_nil_iff.mp h.succeeded o (houtcomes ho)
  have hitems : (r'.applyAll (emissionEvents env es' r')).items ⊆
      (r.applyAll (emissionEvents env es r)).items := by
    have hregistry' : (Entries.names r'.registry).Nodup := hsame ▸ hregistry
    rw [emissionEvents_eq_flatMap hdoc hrecorded, emissionEvents_eq_flatMap hdoc hrecorded']
    exact Run.items_subset hregistry hregistry' hsame (List.filterMap_subset _ hevents) hrecorded
  have hdeclared : results (outcomes env es' r') ⊆ results (outcomes env es r) := by
    rw [← names_outcomes es r] at hnames
    rw [← names_outcomes es' r'] at hnames'
    intro d hd
    rw [results_eq_sortByName hnames' hsucceeded, Text.mem_sortByName] at hd
    rw [results_eq_sortByName hnames (failures_eq_nil_iff.mp h.succeeded), Text.mem_sortByName]
    exact List.map_subset _ houtcomes hd
  refine ⟨hcount, ?_, failures_eq_nil_iff.mpr hsucceeded, ?_⟩
  · rw [emissionEvents_eq_flatMap hdoc hrecorded']
    exact hrecorded'
  · have hunshadowed := h.unshadowed
    rw [shadowingEvents_eq, List.map_eq_nil_iff, List.filter_eq_nil_iff] at hunshadowed ⊢
    intro d hd htaken
    rw [List.contains_iff_mem] at htaken
    refine hunshadowed d (hitems hd) ?_
    rw [List.contains_iff_mem]
    exact List.map_subset _ hdeclared htaken

/-- Fewer entries of clean courses tell fewer events. -/
theorem Clean.emissionEvents_subset (hdoc : env.options.docComments = false)
    (h : Clean env es r) (h' : Clean env es' r') (hsub : es' ⊆ es) :
    emissionEvents env es' r' ⊆ emissionEvents env es r := by
  rw [emissionEvents_eq_flatMap hdoc (h.recorded_flatMap hdoc),
    emissionEvents_eq_flatMap hdoc (h'.recorded_flatMap hdoc)]
  intro event hevent
  obtain ⟨e, he, hmem⟩ := List.mem_flatMap.mp hevent
  exact List.mem_flatMap.mpr ⟨e, hsub he, hmem⟩

/-- Where there is a head for the packages of a run, there is one for some of them. -/
theorem exists_head_eq_ok_of_subset {options : Options} (hr' : r'.required.Nodup)
    (hsub : r'.required ⊆ r.required) {front : String}
    (h : head options commandLine r = .ok front) :
    ∃ front', head options commandLine r' = .ok front' := by
  cases himports : r.imports with
  | error e =>
    rw [head, himports] at h
    cases h
  | ok keys =>
    obtain ⟨keys', hkeys'⟩ := Run.exists_imports_eq_ok_of_subset hr' hsub himports
    rw [head, himports] at h
    rw [head, hkeys']
    cases hremark : remark options commandLine with
    | error e =>
      rw [hremark] at h
      cases h
    | ok text => exact ⟨_, rfl⟩

/-! ## Fewer schemas -/

/-- Without reports there are none if more schemas are ignored. -/
theorem reports_entries_eq_nil_of_subset (hsub : ignored ⊆ ignored')
    (h : reports (entries env ignored).2 = []) : reports (entries env ignored').2 = [] := by
  have hsublist : (declarable env ignored').Sublist (declarable env ignored) := by
    refine List.monotone_filter_right _ fun d hd ↦ ?_
    rw [Bool.not_eq_true', ← Bool.not_eq_true, List.contains_iff_mem] at hd ⊢
    exact fun hmem ↦ hd (hsub hmem)
  rw [reports_entries_eq_nil_iff] at h ⊢
  exact h.sublist (hsublist.map _)

theorem recorded_entries_eq_nil (h : reports (entries env ignored).2 = []) (r : Run) :
    r.recorded (entries env ignored).2 = [] := by
  refine Run.recorded_eq_nil_iff.mpr ⟨h, fun d hd ↦ ?_⟩
  rw [registrations_entries] at hd
  cases hd

theorem count_beginning (h : reports (entries env ignored).2 = []) (w : Json) :
    (beginning env ignored w).issues.count = 0 := by
  have hnote := Run.recorded_map_note [startRecord (entries env ignored).1]
  rw [List.map_cons, List.map_nil] at hnote
  rw [beginning, opening, Run.count_applyAll_eq_length_recorded, Run.recorded_map_note,
    Run.count_applyAll_eq_length_recorded, Run.recorded_append, recorded_entries_eq_nil h, hnote]
  rfl

/-- If more schemas are ignored, fewer are declared. -/
theorem declarable_subset (hsub : ignored ⊆ ignored') :
    declarable env ignored' ⊆ declarable env ignored := by
  intro d hd
  rw [declarable, List.mem_filter, Bool.not_eq_true', ← Bool.not_eq_true, List.contains_iff_mem]
    at hd ⊢
  exact ⟨hd.1, fun hmem ↦ hd.2 (hsub hmem)⟩

theorem entries_subset (hsub : ignored ⊆ ignored') (h : reports (entries env ignored).2 = []) :
    (entries env ignored').1 ⊆ (entries env ignored).1 := by
  intro e he
  have hfewer := entries_perm_of_reports_eq_nil (reports_entries_eq_nil_of_subset hsub h)
  rw [(entries_perm_of_reports_eq_nil h).mem_iff]
  exact List.map_subset _ (declarable_subset hsub) (hfewer.mem_iff.mp he)

/-! ## Ignoring more schemas -/

/-- An environment in which other schemas are ignored. -/
def ignoring (env : Environment) (ignored : List String) : Environment :=
  { env with options := { env.options with ignoreSchemas := .ok ignored } }

/-- The same environment comes of a document with other settings. -/
theorem environment_ignoring (document : Document) (options : Options) (tables : List DocTable)
    (ignored : List String) :
    environment document { options with ignoreSchemas := .ok ignored } tables =
      (ignoring · ignored) <$> environment document options tables := by
  rw [environment, environment]
  cases Correlator.ofTables tables <;> rfl

theorem agree_ignoring : Environment.Agree id env (ignoring env ignored) :=
  Environment.agree_id rfl rfl rfl rfl rfl

/-- What a schema emits does not depend on what is ignored. -/
theorem declaration_ignoring (e : Entry) :
    e.declaration (ignoring env ignored) = e.declaration env := by
  have hsame : Schema.emitNamed (ignoring env ignored) e.name (id e.schema) =
      Schema.emitNamed env e.name e.schema :=
    Schema.emitNamed_renumber Schema.renumbers_id agree_ignoring (fun _ _ ↦ rfl)
      (fun _ _ t _ ↦ Schema.keepsOrder_id t) e.name
  exact hsame

theorem assemble_ignoring (workers : Except Mismatch Json) (es : List Entry) :
    assemble (ignoring env ignored) commandLine workers es =
      assemble env commandLine workers es := by
  have hemit : emitEntry (ignoring env ignored) = emitEntry env := by
    funext e run
    rw [emitEntry, emitEntry, declaration_ignoring]
  have hput : putTogether (ignoring env ignored) commandLine = putTogether env commandLine := rfl
  simp only [assemble, emitAll, hput, hemit]

theorem entries_ignoring : entries (ignoring env ignored) ignored' = entries env ignored' := by
  have hname : ∀ name, (ignoring env ignored).emittedName name = env.emittedName name :=
    fun _ ↦ rfl
  have hchoose : choose (ignoring env ignored) ignored' []
      ((Text.sortByName env.document.schemas).map fun d ↦ (d.1, id d.2)) = _ :=
    choose_renumber hname id ignored' [] (Text.sortByName env.document.schemas)
  have hsame : ((Text.sortByName env.document.schemas).map fun d ↦ (d.1, id d.2)) =
      Text.sortByName env.document.schemas := List.map_id _
  have hentry : Entry.renumber id = id := rfl
  rw [hsame, hentry, List.map_id] at hchoose
  have hdocument : (ignoring env ignored).document = env.document := rfl
  rw [entries, entries, hdocument, hchoose]

/-- The generation that ignores other schemas is a clean course of the environment as it was, if
there is one of the schemas that are left. -/
theorem generateFile_ignoring_of_clean (commandLine : Except FileTree.PathError String)
    {w : Json} {log : List Log.Record} (hlog : startLog w (entries env ignored').1.length = .ok log)
    (hreports : reports (entries env ignored').2 = [])
    (hclean : Clean env (entries env ignored').1 (beginning env ignored' w)) :
    generateFile (ignoring env ignored') commandLine (.ok w) =
      ((head env.options commandLine
          (emitted env (entries env ignored').1 (beginning env ignored' w))).map fun front ↦
        { head := front
          hoisted := (emitted env (entries env ignored').1 (beginning env ignored' w)).items
          declared := results (outcomes env (entries env ignored').1 (beginning env ignored' w)) },
        emitted env (entries env ignored').1 (beginning env ignored' w)) := by
  have hbeginning : beginning env ignored' w = opening log
      (((Run.start env.options.maxReportedErrors).applyAll (entries env ignored').2).applyAll
        ([startRecord (entries env ignored').1].map .note)) := by
    rw [beginning, hlog, Run.applyAll_append]
    rfl
  have hnote := runFrom_tell_notes [startRecord (entries env ignored').1]
    ((Run.start env.options.maxReportedErrors).applyAll (entries env ignored').2)
  rw [List.map_cons, List.map_nil] at hnote hbeginning
  rw [hbeginning] at hclean ⊢
  have hstart : (ignoring env ignored').options.ignoreSchemas = .ok ignored' := rfl
  rw [generateFile, compose, hstart, runFrom_bind_of_ok (runFrom_lift_ok ignored' _)]
  dsimp only
  rw [entries_ignoring]
  have hlimit : (ignoring env ignored').options.maxReportedErrors =
    env.options.maxReportedErrors := rfl
  have hchosen := recorded_entries_eq_nil hreports (.start env.options.maxReportedErrors)
  rw [hlimit, runFrom_bind_of_ok (runFrom_tell_of_recorded_eq_nil hchosen),
    runFrom_bind_of_ok hnote, assemble_ignoring, runFrom_assemble_of_clean hlog hclean]

/-! ## A pure removal -/

/-- Entries of a clean course are declared by what they emit where nothing is remembered. -/
theorem Clean.results_eq (hdoc : env.options.docComments = false) (h : Clean env es r)
    (hnames : (es.map Entry.name).Nodup) :
    results (outcomes env es r) =
      Text.sortByName (es.map fun e ↦ (e.name, (e.declaration env []).text)) := by
  rw [results_eq_sortByName ((names_outcomes es r).symm ▸ hnames)
    (failures_eq_nil_iff.mp h.succeeded), outcomes_eq_map_outcome hdoc (h.recorded_flatMap hdoc),
    List.map_map]
  rfl

/-- The declarations of some entries are those among the declarations of all that go by their
names. -/
theorem Clean.results_of_subset (hdoc : env.options.docComments = false) (h : Clean env es r)
    (h' : Clean env es' r') (hsub : es' ⊆ es) (hnames : (es.map Entry.name).Nodup)
    (hnames' : (es'.map Entry.name).Nodup) :
    results (outcomes env es' r') =
      (results (outcomes env es r)).filter fun d ↦ d.1 ∈ es'.map Entry.name := by
  have hnodup : (results (outcomes env es' r')).Nodup := .of_map _ nodup_names_results
  have hperm : (results (outcomes env es' r')).Perm
      ((results (outcomes env es r)).filter fun d ↦ d.1 ∈ es'.map Entry.name) := by
    refine (List.perm_ext_iff_of_nodup hnodup ((List.Nodup.of_map _ nodup_names_results).filter
      _)).mpr fun d ↦ ?_
    rw [List.mem_filter, decide_eq_true_iff, h.results_eq hdoc hnames, h'.results_eq hdoc hnames',
      Text.mem_sortByName, Text.mem_sortByName]
    constructor
    · intro hd
      obtain ⟨e, he, rfl⟩ := List.mem_map.mp hd
      exact ⟨List.mem_map_of_mem (hsub he), List.mem_map_of_mem he⟩
    · rintro ⟨hd, hname⟩
      obtain ⟨e, he, rfl⟩ := List.mem_map.mp hd
      obtain ⟨other, hother, heq⟩ := List.mem_map.mp hname
      obtain rfl := List.inj_on_of_nodup_map hnames (hsub hother) he heq
      exact List.mem_map_of_mem hother
  exact Text.eq_of_perm_of_pairwise hperm nodup_names_results pairwise_results
    (pairwise_results.filter _)

section Removal

variable (hdoc : env.options.docComments = false)
  (hignored : env.options.ignoreSchemas = .ok ignored) (hsub : ignored ⊆ ignored') {w : Json}

include hdoc hignored hsub

/-- Without issues, the course of the schemas that are left is clean. -/
theorem clean_of_ignoring (h : generateFile env commandLine (.ok w) = (.ok file, run))
    (hcount : run.issues.count = 0) :
    Clean env (entries env ignored').1 (beginning env ignored' w) := by
  have hreports := reports_entries_eq_nil_of_count hignored h hcount
  have hsame : (beginning env ignored' w).registry = (beginning env ignored w).registry := by
    rw [registry_beginning, registry_beginning]
  exact (clean_generateFile hignored h hcount).1.of_subset hdoc (entries_subset hsub hreports)
    (nodup_names_entries env ignored) (nodup_names_entries env ignored')
    (nodup_names_registry_beginning env ignored w) hsame
    (count_beginning (reports_entries_eq_nil_of_subset hsub hreports) w)

/-- Without issues, the generation that ignores more schemas gets a file of a clean course. -/
theorem exists_generateFile_ignoring
    (h : generateFile env commandLine (.ok w) = (.ok file, run)) (hcount : run.issues.count = 0) :
    ∃ front, generateFile (ignoring env ignored') commandLine (.ok w) =
      (.ok {
          head := front
          hoisted := (emitted env (entries env ignored').1 (beginning env ignored' w)).items
          declared := results (outcomes env (entries env ignored').1 (beginning env ignored' w)) },
        emitted env (entries env ignored').1 (beginning env ignored' w)) := by
  have hreports := reports_entries_eq_nil_of_count hignored h hcount
  have hentries := entries_subset hsub hreports
  obtain ⟨hclean, hrun, hhead, -⟩ := clean_generateFile hignored h hcount
  have hclean' := clean_of_ignoring hdoc hignored hsub h hcount
  obtain ⟨-, log, hlog, -, -⟩ := of_generateFile_eq_ok hignored h
  have hlength : (entries env ignored').1.length ≤ (entries env ignored).1.length :=
    ((List.Nodup.of_map _ (nodup_names_entries env ignored')).subperm hentries).length_le
  obtain ⟨log', hlog'⟩ := exists_startLog_eq_ok_of_le hlength hlog
  have hgenerate := generateFile_ignoring_of_clean commandLine hlog'
    (reports_entries_eq_nil_of_subset hsub hreports) hclean'
  obtain ⟨front, hfront⟩ : ∃ front, head env.options commandLine
      (emitted env (entries env ignored').1 (beginning env ignored' w)) = .ok front := by
    rw [hrun] at hhead
    have hneeds : requirements (emissionEvents env (entries env ignored').1
        (beginning env ignored' w)) ⊆ requirements (history env ignored w) :=
      List.filterMap_subset _ (hclean.emissionEvents_subset hdoc hclean' hentries)
    refine exists_head_eq_ok_of_subset ?_ (fun path hpath ↦ ?_) hhead
    · rw [hclean'.emitted_eq]
      refine Run.nodup_required_applyAll ?_ _
      rw [required_beginning]
      exact List.nodup_nil
    · rw [hclean'.emitted_eq, Run.mem_required_applyAll, required_beginning] at hpath
      rcases hpath with hpath | hpath
      · cases hpath
      · exact Run.mem_required_applyAll.mpr (.inr (hneeds hpath))
  rw [hfront] at hgenerate
  exact ⟨front, hgenerate⟩

/-- **Ignoring schemas is a pure removal.** Without documentation comments, where a document is
generated without issues it is so if more schemas are ignored. The declarations of the schemas that
are left are those that they had, all of them and no others, and what is hoisted is some of what was
hoisted. -/
theorem ignoring_removes {workers : Except Mismatch Json}
    (h : generateFile env commandLine workers = (.ok file, run)) (hcount : run.issues.count = 0) :
    ∃ file' run', generateFile (ignoring env ignored') commandLine workers = (.ok file', run') ∧
      run'.issues.count = 0 ∧
      file'.declared = file.declared.filter (fun d ↦
        d.1 ∈ (declarable env ignored').map fun s ↦ env.emittedName s.1) ∧
      file'.hoisted ⊆ file.hoisted := by
  obtain ⟨_, w, -, rfl⟩ := exists_of_generateFile_eq_ok h
  obtain ⟨hclean, hrun, -, hhoisted⟩ := clean_generateFile hignored h hcount
  have hreports := reports_entries_eq_nil_of_count hignored h hcount
  have hentries := entries_subset hsub hreports
  have hclean' := clean_of_ignoring hdoc hignored hsub h hcount
  obtain ⟨front, hgenerate⟩ := exists_generateFile_ignoring hdoc hignored hsub h hcount
  refine ⟨_, _, hgenerate, hclean'.count_emitted, ?_, ?_⟩
  · have hkept : ∀ name, name ∈ (entries env ignored').1.map Entry.name ↔
        name ∈ (declarable env ignored').map fun s ↦ env.emittedName s.1 := by
      intro name
      have hperm := entries_perm_of_reports_eq_nil (reports_entries_eq_nil_of_subset hsub hreports)
      rw [(hperm.map Entry.name).mem_iff, List.map_map]
      rfl
    dsimp only
    rw [declared_generateFile hignored h, documentOutcomes,
      hclean.results_of_subset hdoc hclean' hentries (nodup_names_entries env ignored)
        (nodup_names_entries env ignored')]
    simp only [hkept]
  · have hsame : (beginning env ignored' w).registry = (beginning env ignored w).registry := by
      rw [registry_beginning, registry_beginning]
    dsimp only
    rw [hhoisted, hrun, hclean'.emitted_eq]
    exact Run.items_subset (nodup_names_registry_beginning env ignored w)
      (nodup_names_registry_beginning env ignored' w) hsame
      (List.filterMap_subset _ (hclean.emissionEvents_subset hdoc hclean' hentries))
      hclean.recorded

end Removal

/-- Of two schemas that hoist declarations of their own, the first is ignored. -/
theorem ignoring_removes_pair :
    ∃ file run file' run',
      generateFile (plainEnvironment pairDocument) (.ok "") (.ok (.int 2)) = (.ok file, run) ∧
      generateFile (ignoring (plainEnvironment pairDocument) ["Guild"]) (.ok "") (.ok (.int 2)) =
        (.ok file', run') ∧
      run.issues.count = 0 ∧ run'.issues.count = 0 ∧
      Entries.names file.declared = ["Guild", "Member"] ∧
      file'.declared = file.declared.filter (fun d ↦
        d.1 ∈ (declarable (plainEnvironment pairDocument) ["Guild"]).map fun s ↦
          (plainEnvironment pairDocument).emittedName s.1) ∧
      file'.hoisted ⊆ file.hoisted := by
  have hcount : (generateFile (plainEnvironment pairDocument) (.ok "")
      (.ok (.int 2))).2.issues.count = 0 := by
    decide +kernel
  have hnames : ((generateFile (plainEnvironment pairDocument) (.ok "")
      (.ok (.int 2))).1.toOption.map fun file ↦ Entries.names file.declared) =
        some ["Guild", "Member"] := by
    decide +kernel
  generalize hresult : generateFile (plainEnvironment pairDocument) (.ok "") (.ok (.int 2)) =
    result at hcount hnames
  obtain ⟨outcome, run⟩ := result
  cases outcome with
  | error e => cases hnames
  | ok file =>
    have hignored : (plainEnvironment pairDocument).options.ignoreSchemas = .ok [] := rfl
    obtain ⟨file', run', hgenerate, hcount', hremoved, hhoisted⟩ :=
      ignoring_removes rfl hignored (List.nil_subset ["Guild"]) hresult hcount
    exact ⟨file, run, file', run', rfl, hgenerate, hcount, hcount', Option.some.inj hnames,
      hremoved, hhoisted⟩

end Generation

end SchemaTypes
