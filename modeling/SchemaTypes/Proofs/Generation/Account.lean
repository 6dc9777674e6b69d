import SchemaTypes.Proofs.Emission.Declares
import SchemaTypes.Proofs.Generation.Choice
import SchemaTypes.Proofs.Generation.Course
import SchemaTypes.Proofs.Run.Order

/-!
# The account of a generation

Texts get lost on the way into a file at four places: a schema whose identifier is taken is not
chosen, a schema that fails before it writes anything leaves no text, a registration is overruled by
an earlier one, and a hoisted declaration gives way to a schema. Each of these leaves an issue, and
`count_generateFile` says exactly how the number of issues is made up.

So nothing is lost silently (`nothing_lost`): there are at least as many issues as texts that are
missing, and where there is none the file holds everything that was emitted.

What is lost is told by comparing what the file holds with what it should hold, not by looking at
the places. That this tells the truth about schemas rests on their going by different names
(`emittedName_injective`).
-/

namespace SchemaTypes

namespace Generation

open Event Schedule Step

variable {env : Environment} {commandLine : Except FileTree.PathError String}
  {ignored : List String} {w : Json} {file : SourceFile} {run : Run}

/-! ## The history of a document -/

/-- The run in which the first schema of a document is emitted. Where nothing can be said of the
workers, nothing is noted of them. -/
def beginning (env : Environment) (ignored : List String) (w : Json) : Run :=
  opening ((startLog w (entries env ignored).1.length).toOption.getD [])
    ((Run.start env.options.maxReportedErrors).applyAll
      ((entries env ignored).2 ++ [.note (startRecord (entries env ignored).1)]))

/-- The turns in which the schemas of a document are emitted. -/
def documentTurns (env : Environment) (ignored : List String) (w : Json) : List (Entry × Run) :=
  turns (emitEntry env) (entries env ignored).1 (beginning env ignored w)

/-- What happens while the schemas of a document are emitted. -/
def history (env : Environment) (ignored : List String) (w : Json) : List Event :=
  emissionEvents env (entries env ignored).1 (beginning env ignored w)

/-- The outcomes of emitting the schemas of a document. -/
def documentOutcomes (env : Environment) (ignored : List String) (w : Json) : List Outcome :=
  outcomes env (entries env ignored).1 (beginning env ignored w)

theorem nodup_names_documentOutcomes (env : Environment) (ignored : List String) (w : Json) :
    ((documentOutcomes env ignored w).map Outcome.name).Nodup := by
  rw [documentOutcomes, names_outcomes]
  exact nodup_names_entries env ignored

/-- The file of a document is that of a course which begins with the first schema. -/
theorem of_generateFile_eq_ok (hignored : env.options.ignoreSchemas = .ok ignored)
    (h : generateFile env commandLine (.ok w) = (.ok file, run)) :
    ∃ r log, startLog w (entries env ignored).1.length = .ok log ∧
      beginning env ignored w = opening log r ∧
      (assemble env commandLine (.ok w) (entries env ignored).1).runFrom r = (.ok file, run) := by
  rw [generateFile, compose, hignored, runFrom_bind_of_ok (runFrom_lift_ok ignored _)] at h
  dsimp only at h
  obtain ⟨_, chosen, hchosen, h⟩ := of_runFrom_bind_eq_ok h
  obtain ⟨_, noted, hnoted, h⟩ := of_runFrom_bind_eq_ok h
  obtain ⟨log, hlog, -⟩ := of_runFrom_assemble_eq_ok h
  refine ⟨noted, log, hlog, ?_, h⟩
  rw [of_runFrom_tell_eq_ok hnoted, of_runFrom_tell_eq_ok hchosen, beginning, hlog,
    Run.applyAll_append]
  rfl

theorem of_generateFile_eq_ok_of_putTogether (hignored : env.options.ignoreSchemas = .ok ignored)
    (h : generateFile env commandLine (.ok w) = (.ok file, run)) :
    (putTogether env commandLine (results (documentOutcomes env ignored w))).runFrom
      (emitted env (entries env ignored).1 (beginning env ignored w)) = (.ok file, run) := by
  obtain ⟨r, log, hlog, hbeginning, hassemble⟩ := of_generateFile_eq_ok hignored h
  obtain ⟨_, hlog', hfile⟩ := of_runFrom_assemble_eq_ok hassemble
  rw [hlog] at hlog'
  cases hlog'
  rw [documentOutcomes, hbeginning]
  exact hfile

/-- The file of a document holds the texts of its schemas. -/
theorem declared_generateFile (hignored : env.options.ignoreSchemas = .ok ignored)
    (h : generateFile env commandLine (.ok w) = (.ok file, run)) :
    file.declared = results (documentOutcomes env ignored w) :=
  (of_runFrom_putTogether_eq_ok (of_generateFile_eq_ok_of_putTogether hignored h)).2.2.1

/-- Before the first schema is emitted there are notes and reports, and nothing else. -/
theorem beginning_eq_applyAll (env : Environment) (ignored : List String) (w : Json) :
    ∃ events, beginning env ignored w = (Run.start env.options.maxReportedErrors).applyAll events ∧
      ∀ event ∈ events, (∃ record, event = .note record) ∨ ∃ issue, event = .report issue := by
  refine ⟨_, by rw [beginning, opening, ← Run.applyAll_append], fun event hevent ↦ ?_⟩
  rcases List.mem_append.mp hevent with hevent | hevent
  · rcases List.mem_append.mp hevent with hevent | hevent
    · obtain hnote | ⟨_, _, _, hreport⟩ := of_mem_events_choose hevent
      · exact .inl hnote
      · exact .inr ⟨_, hreport⟩
    · exact .inl ⟨_, List.mem_singleton.mp hevent⟩
  · obtain ⟨record, -, rfl⟩ := List.mem_map.mp hevent
    exact .inl ⟨record, rfl⟩

theorem registry_beginning (env : Environment) (ignored : List String) (w : Json) :
    (beginning env ignored w).registry = [] := by
  obtain ⟨events, heq, hevents⟩ := beginning_eq_applyAll env ignored w
  rw [heq, Run.registry_applyAll_of_registrations_eq_nil]
  · rfl
  · refine List.filterMap_eq_nil_iff.mpr fun event hevent ↦ ?_
    obtain ⟨_, rfl⟩ | ⟨_, rfl⟩ := hevents event hevent <;> rfl

theorem nodup_names_registry_beginning (env : Environment) (ignored : List String) (w : Json) :
    (Entries.names (beginning env ignored w).registry).Nodup := by
  rw [registry_beginning]
  exact List.nodup_nil

theorem required_beginning (env : Environment) (ignored : List String) (w : Json) :
    (beginning env ignored w).required = [] := by
  obtain ⟨events, heq, hevents⟩ := beginning_eq_applyAll env ignored w
  refine List.eq_nil_iff_forall_not_mem.mpr fun path hpath ↦ ?_
  rw [heq, Run.mem_required_applyAll, or_iff_right (by exact List.not_mem_nil)] at hpath
  obtain ⟨event, hevent, hneeds⟩ := List.mem_filterMap.mp hpath
  obtain ⟨_, rfl⟩ | ⟨_, rfl⟩ := hevents event hevent <;> cases hneeds

theorem memory_beginning (env : Environment) (ignored : List String) (w : Json) :
    (beginning env ignored w).memory = [] := by
  obtain ⟨events, heq, hevents⟩ := beginning_eq_applyAll env ignored w
  refine List.eq_nil_iff_forall_not_mem.mpr fun found hfound ↦ ?_
  rw [heq, Run.mem_memory_applyAll, or_iff_right (by exact List.not_mem_nil)] at hfound
  obtain ⟨_, hevent⟩ | ⟨_, hevent⟩ := hevents _ hfound <;> cases hevent

/-! ## The number of issues -/

/-- What is said of hoisted declarations in the way leaves those that there are. -/
theorem items_generateFile (hignored : env.options.ignoreSchemas = .ok ignored)
    (h : generateFile env commandLine (.ok w) = (.ok file, run)) :
    run.items = (emitted env (entries env ignored).1 (beginning env ignored w)).items := by
  obtain ⟨-, -, -, hrun⟩ :=
    of_runFrom_putTogether_eq_ok (of_generateFile_eq_ok_of_putTogether hignored h)
  rw [Run.items, Run.items, hrun, closing,
    Run.registry_applyAll_of_registrations_eq_nil (registrations_map_note _),
    Run.registry_applyAll_of_registrations_eq_nil (registrations_shadowingEvents _ _)]

/-- The hoisted declarations of a file are those of the run that are not in the way. -/
theorem hoisted_generateFile (hignored : env.options.ignoreSchemas = .ok ignored)
    (h : generateFile env commandLine (.ok w) = (.ok file, run)) :
    file.hoisted = hoisted (declaredTypes file.declared) run.items := by
  obtain ⟨-, hhoisted, hdeclared, hrun⟩ :=
    of_runFrom_putTogether_eq_ok (of_generateFile_eq_ok_of_putTogether hignored h)
  rw [hhoisted, hdeclared, hrun, Run.items, Run.items,
    Run.registry_applyAll_of_registrations_eq_nil (registrations_map_note _)]

/-- The run behind a file is made by what is said of the choice, by the emission, by the failures
and by what is said of hoisted declarations in the way. -/
theorem run_generateFile (hignored : env.options.ignoreSchemas = .ok ignored)
    (h : generateFile env commandLine (.ok w) = (.ok file, run)) :
    ∃ first last : List Log.Record, run = (Run.start env.options.maxReportedErrors).applyAll
      ((entries env ignored).2 ++ first.map .note ++ history env ignored w ++
        failureEvents (documentOutcomes env ignored w) ++
        shadowingEvents (declaredTypes file.declared) run.items ++ last.map .note) := by
  obtain ⟨r, log, hlog, -, -⟩ := of_generateFile_eq_ok hignored h
  obtain ⟨-, -, hdeclared, hrun⟩ :=
    of_runFrom_putTogether_eq_ok (of_generateFile_eq_ok_of_putTogether hignored h)
  refine ⟨startRecord (entries env ignored).1 :: log,
    summaryLog (closing file.declared
      (emitted env (entries env ignored).1 (beginning env ignored w))), ?_⟩
  rw [items_generateFile hignored h, hrun, ← hdeclared, closing, emitted, beginning, opening, hlog,
    history, documentOutcomes, beginning, hlog]
  simp only [← Run.applyAll_append, Except.toOption, Option.getD_some, opening, List.append_assoc,
    List.map_cons, List.cons_append, List.nil_append]

/-- **The account of issues.** There is one issue for each schema that is not chosen, one for each
that is reported while schemas are emitted, one for each schema that fails, one for each hoisted
declaration that has the name of a schema, and one for each registration that is overruled. -/
theorem count_generateFile (hignored : env.options.ignoreSchemas = .ok ignored)
    (h : generateFile env commandLine (.ok w) = (.ok file, run)) :
    run.issues.count =
      (reports (entries env ignored).2).length +
      (reports (history env ignored w)).length +
      (failures (documentOutcomes env ignored w)).length +
      (reports (shadowingEvents (declaredTypes file.declared) run.items)).length +
      (registrations (history env ignored w)).countP run.overrules := by
  obtain ⟨first, last, hrun⟩ := run_generateFile hignored h
  have hcount := congrArg (fun r : Run ↦ r.issues.count) hrun
  rw [Run.count_applyAll, ← hrun] at hcount
  simp only [reports_append, registrations_append, reports_map_note, registrations_map_note,
    reports_failureEvents, registrations_failureEvents, registrations_entries,
    registrations_shadowingEvents, List.append_nil, List.nil_append, List.length_append] at hcount
  rw [hcount, List.countP_eq_length_filter]
  have hstart : (Run.start env.options.maxReportedErrors).issues.count = 0 := rfl
  omega

/-- Without issues no schema is in the way of another one. -/
theorem reports_entries_eq_nil_of_count (hignored : env.options.ignoreSchemas = .ok ignored)
    (h : generateFile env commandLine (.ok w) = (.ok file, run)) (hcount : run.issues.count = 0) :
    reports (entries env ignored).2 = [] := by
  have haccount := count_generateFile hignored h
  rw [hcount] at haccount
  exact List.length_eq_zero_iff.mp (by omega)

/-! ## Losses -/

/-- The schemas that are not ignored and have no declaration in a file. -/
def undeclared (env : Environment) (ignored : List String) (file : SourceFile) :
    List (String × Schema) :=
  (declarable env ignored).filter fun d ↦ env.emittedName d.1 ∉ Entries.names file.declared

/-- The names under which a run has registered a declaration that is not in a file. -/
def unhoisted (run : Run) (file : SourceFile) : List String :=
  (Entries.names run.registry).filter fun name ↦ name ∉ Entries.names file.hoisted

/-- The registrations for a document whose text is not the one that a run keeps under the name. -/
def overruled (env : Environment) (ignored : List String) (w : Json) (run : Run) :
    List (String × String) :=
  (registrations (history env ignored w)).filter run.overrules

/-- A schema that has no declaration has not been chosen, or it has failed. -/
theorem length_undeclared_le (hignored : env.options.ignoreSchemas = .ok ignored)
    (h : generateFile env commandLine (.ok w) = (.ok file, run)) :
    (undeclared env ignored file).length ≤ (reports (entries env ignored).2).length +
      (failures (documentOutcomes env ignored w)).length := by
  rw [undeclared, ← List.countP_eq_length_filter]
  refine Nat.le_trans (countP_declarable_le
    (fun name ↦ name ∉ Entries.names file.declared) env ignored) ?_
  refine Nat.add_le_add_left ?_ _
  have hnames : (entries env ignored).1.map Entry.name =
      (documentOutcomes env ignored w).map Outcome.name := (names_outcomes _ _).symm
  let missing : String → Bool := fun name ↦ name ∉ Entries.names file.declared
  calc (entries env ignored).1.countP (missing ∘ Entry.name)
      = ((documentOutcomes env ignored w).map Outcome.name).countP missing := by
        rw [← List.countP_map, hnames]
    _ = ((documentOutcomes env ignored w).filter (missing ∘ Outcome.name)).length := by
        rw [List.countP_map, List.countP_eq_length_filter]
    _ ≤ (failures (documentOutcomes env ignored w)).length := by
        have hmissing : missing = fun name ↦
            decide (name ∉ Entries.names (results (documentOutcomes env ignored w))) := by
          rw [← declared_generateFile hignored h]
        rw [hmissing]
        exact length_missing_le

/-- A registered name without a hoisted declaration is that of a schema. -/
theorem length_unhoisted (hignored : env.options.ignoreSchemas = .ok ignored)
    (h : generateFile env commandLine (.ok w) = (.ok file, run)) :
    (unhoisted run file).length =
      (reports (shadowingEvents (declaredTypes file.declared) run.items)).length := by
  have hnames : (Entries.names run.registry).Perm (run.items.map Prod.fst) :=
    (Text.names_sortByName_perm run.registry).symm
  rw [unhoisted, ← List.countP_eq_length_filter, hnames.countP_eq, List.countP_map,
    length_reports_shadowingEvents, ← List.countP_eq_length_filter]
  refine List.countP_congr fun d hd ↦ ?_
  rw [Function.comp_apply, decide_eq_true_iff, hoisted_generateFile hignored h]
  constructor
  · intro hmissing
    by_contra hother
    refine hmissing (List.mem_map_of_mem (List.mem_filter.mpr ⟨hd, ?_⟩))
    simpa using hother
  · rintro hschema hmem
    obtain ⟨other, hother, hname⟩ := List.mem_map.mp hmem
    have hfree : other.1 ∉ declaredTypes file.declared := by
      simpa using (List.mem_filter.mp hother).2
    rw [← hname, List.contains_iff_mem] at hschema
    exact hfree hschema

/-- A file with everything in it that a document gives rise to. -/
structure Complete (env : Environment) (commandLine : Except FileTree.PathError String)
    (ignored : List String) (w : Json) (run : Run) (file : SourceFile) : Prop where
  /-- The head is made for the packages that the run needs. -/
  head_eq : head env.options commandLine run = .ok file.head
  /-- All declarations of the run are hoisted, in the order of their names. -/
  hoisted_eq : file.hoisted = run.items
  hoisted_strict : (Entries.names file.hoisted).Pairwise (· < ·)
  /-- These are all that have been registered, each with the text that was. -/
  mem_hoisted : ∀ d, d ∈ file.hoisted ↔ d ∈ registrations (history env ignored w)
  /-- All schemas that are not ignored have had a turn, under the names they go by. -/
  turns_perm : ((documentTurns env ignored w).map Prod.fst).Perm
    ((declarable env ignored).map fun d ↦ ⟨env.emittedName d.1, d.2⟩)
  /-- Every schema is declared by the text that it emitted in its turn. -/
  declared_eq : file.declared = (documentTurns env ignored w).map fun t ↦
    (t.1.name, (t.1.declaration env t.2.memory).text)
  declared_strict : (Entries.names file.declared).Pairwise (· < ·)
  /-- No emission has ended early. -/
  ended : ∀ t ∈ documentTurns env ignored w, (t.1.declaration env t.2.memory).failure? = none
  /-- The text consists of the head and the declarations, apart from line feeds at their ends. -/
  text_eq : ∃ n, file.text ++ String.ofList (List.replicate n '\n') =
    TypeExpression.trimFeeds file.head ++ "\n\n" ++
      (String.join (run.items.map Prod.snd) ++ String.join (file.declared.map Prod.snd)) ++ "\n"

theorem exists_text_append_feeds (file : SourceFile) :
    ∃ n, file.text ++ String.ofList (List.replicate n '\n') =
      TypeExpression.trimFeeds file.head ++ "\n\n" ++ file.body ++ "\n" := by
  obtain ⟨n, hn⟩ := TypeExpression.exists_trimFeeds_append file.body
  refine ⟨n, ?_⟩
  have hswap : "\n" ++ String.ofList (List.replicate n '\n') =
      String.ofList (List.replicate n '\n') ++ "\n" := by
    rw [← String.toList_inj]
    have hlist : '\n' :: List.replicate n '\n' = List.replicate n '\n' ++ ['\n'] := by
      rw [← List.replicate_succ, List.replicate_succ']
    simpa using hlist
  calc file.text ++ String.ofList (List.replicate n '\n')
      = TypeExpression.trimFeeds file.head ++ "\n\n" ++
          (TypeExpression.trimFeeds file.body ++ String.ofList (List.replicate n '\n')) ++
            "\n" := by
        rw [SourceFile.text]
        simp only [String.append_assoc, hswap]
    _ = _ := by rw [hn]

/-- Without issues the course of a document is clean, and its run is made by the emission alone. -/
theorem clean_generateFile (hignored : env.options.ignoreSchemas = .ok ignored)
    (h : generateFile env commandLine (.ok w) = (.ok file, run)) (hcount : run.issues.count = 0) :
    Clean env (entries env ignored).1 (beginning env ignored w) ∧
      run = (beginning env ignored w).applyAll (history env ignored w) ∧
      head env.options commandLine run = .ok file.head ∧ file.hoisted = run.items := by
  obtain ⟨r, log, hlog, hbeginning, hassemble⟩ := of_generateFile_eq_ok hignored h
  have hzero : ((assemble env commandLine (.ok w) (entries env ignored).1).runFrom
      r).2.issues.count = 0 := by
    rw [hassemble]
    exact hcount
  have hclean := clean_of_count_eq_zero hlog hzero
  rw [runFrom_assemble_of_clean hlog hclean, ← hbeginning, Prod.mk.injEq] at hassemble
  rw [← hbeginning] at hclean
  obtain ⟨hresult, hrun⟩ := hassemble
  refine ⟨hclean, ?_, ?_⟩
  · rw [← hrun, hclean.emitted_eq, history]
  · rw [← hrun]
    cases hfront : head env.options commandLine
        (emitted env (entries env ignored).1 (beginning env ignored w)) with
    | error e =>
      rw [hfront] at hresult
      cases hresult
    | ok front =>
      rw [hfront] at hresult
      cases hresult
      exact ⟨rfl, rfl⟩

theorem pairwise_documentTurns (env : Environment) (ignored : List String) (w : Json) :
    (documentTurns env ignored w).Pairwise fun a b ↦ a.1.name ≤ b.1.name := by
  have hentries : (entries env ignored).1.Pairwise fun a b ↦ a.name ≤ b.name :=
    Text.pairwise_sorted_name Entry.name _
  rw [← map_fst_turns (emitEntry env) (entries env ignored).1 (beginning env ignored w),
    List.pairwise_map] at hentries
  exact hentries

/-- Without issues every schema is declared by what it emitted, in the order of the turns. -/
theorem declared_eq_map_of_clean (h : Clean env (entries env ignored).1 (beginning env ignored w)) :
    results (documentOutcomes env ignored w) = (documentTurns env ignored w).map fun t ↦
      (t.1.name, (t.1.declaration env t.2.memory).text) := by
  have hnames := nodup_names_documentOutcomes env ignored w
  have htexts : (documentOutcomes env ignored w).map (fun o ↦ (o.name, o.written)) =
      (documentTurns env ignored w).map fun t ↦
        (t.1.name, (t.1.declaration env t.2.memory).text) := by
    rw [documentOutcomes, outcomes_eq_map, List.map_map]
    refine List.map_congr_left fun t ht ↦ ?_
    rw [Function.comp_apply, (h.turn ht).1]
  have hnodup : (Entries.names ((documentTurns env ignored w).map fun t ↦
      (t.1.name, (t.1.declaration env t.2.memory).text))).Nodup := by
    rw [← htexts, Entries.names, List.map_map]
    exact hnames
  rw [results_eq_sortByName hnames (failures_eq_nil_iff.mp h.succeeded), htexts]
  refine Text.sortByName_eq_self hnodup ?_
  rw [List.pairwise_map]
  exact pairwise_documentTurns env ignored w

theorem complete_of_count_eq_zero (hignored : env.options.ignoreSchemas = .ok ignored)
    (h : generateFile env commandLine (.ok w) = (.ok file, run)) (hcount : run.issues.count = 0) :
    Complete env commandLine ignored w run file := by
  obtain ⟨hclean, hrun, hhead, hhoisted⟩ := clean_generateFile hignored h hcount
  have hnodup : (Entries.names run.registry).Nodup := by
    rw [hrun]
    exact Run.nodup_names_registry_applyAll (nodup_names_registry_beginning env ignored w) _
  have hreports := reports_entries_eq_nil_of_count hignored h hcount
  refine ⟨hhead, hhoisted, ?_, ?_, ?_, ?_, ?_, ?_, ?_⟩
  · rw [hhoisted]
    refine Text.pairwise_lt_names ?_ (Text.pairwise_sortByName _)
    exact (Text.names_sortByName_perm _).nodup_iff.mpr hnodup
  · rintro ⟨name, text⟩
    rw [hhoisted, Run.items, Text.mem_sortByName, ← Entries.lookup_eq_some_iff_mem hnodup, hrun]
    constructor
    · intro hlookup
      rw [Run.lookup_registry_applyAll, registry_beginning, List.lookup_nil, Option.none_or]
        at hlookup
      obtain ⟨before, after, hsplit, -⟩ := List.lookup_eq_some_iff.mp hlookup
      simp [hsplit]
    · exact Run.lookup_registry_of_mem hclean.recorded
  · rw [documentTurns, map_fst_turns]
    exact entries_perm_of_reports_eq_nil hreports
  · rw [declared_generateFile hignored h, declared_eq_map_of_clean hclean]
  · rw [declared_generateFile hignored h]
    exact Text.pairwise_lt_names nodup_names_results pairwise_results
  · exact fun t ht ↦ (hclean.turn ht).2.2
  · obtain ⟨n, hn⟩ := exists_text_append_feeds file
    refine ⟨n, ?_⟩
    rw [hn, SourceFile.body, List.map_append, String.join_append, hhoisted]

/-- **Nothing is lost silently.** There are at least as many issues as schemas without a
declaration, registered names without one, and registrations that were overruled. Without issues the
file holds everything that was emitted, as it was emitted. -/
theorem nothing_lost (hignored : env.options.ignoreSchemas = .ok ignored)
    (h : generateFile env commandLine (.ok w) = (.ok file, run)) :
    (undeclared env ignored file).length + (unhoisted run file).length +
        (overruled env ignored w run).length ≤ run.issues.count ∧
      (run.issues.count = 0 → Complete env commandLine ignored w run file) := by
  refine ⟨?_, complete_of_count_eq_zero hignored h⟩
  have haccount := count_generateFile hignored h
  have hundeclared := length_undeclared_le hignored h
  have hunhoisted := length_unhoisted hignored h
  have hoverruled : (overruled env ignored w run).length =
      (registrations (history env ignored w)).countP run.overrules :=
    List.countP_eq_length_filter.symm
  omega

/-- A document with two schemas of one identifier, and one that refers to a number. -/
def flawedDocument : Document where
  schemas := [("Broken", .reference (.int 5) 1), ("Guild", .leaf (.blank 2)),
    ("guild", .leaf (.blank 3))]
  responses := []

/-- Two of the three schemas are not declared, and these are the two issues. -/
theorem nothing_lost_flawed :
    ∃ file run,
      generateFile (plainEnvironment flawedDocument) (.ok "") (.ok (.int 1)) = (.ok file, run) ∧
      (undeclared (plainEnvironment flawedDocument) [] file).length = 2 ∧ run.issues.count = 2 ∧
      (undeclared (plainEnvironment flawedDocument) [] file).length + (unhoisted run file).length +
        (overruled (plainEnvironment flawedDocument) [] (.int 1) run).length ≤ run.issues.count ∧
      (run.issues.count = 0 →
        Complete (plainEnvironment flawedDocument) (.ok "") [] (.int 1) run file) := by
  let run := (generateFile (plainEnvironment flawedDocument) (.ok "") (.ok (.int 1))).2
  let file : SourceFile :=
    { head := "// Code generated by openapi_to_code v1.0.0 : . DO NOT EDIT.\n\npackage main\n"
      hoisted := []
      declared := [("Guild", "type Guild struct\x7b /* unknown */ \x7d\n\n")] }
  have hfile : (generateFile (plainEnvironment flawedDocument) (.ok "") (.ok (.int 1))).1 =
      .ok file := by
    decide +kernel
  have hgenerate : generateFile (plainEnvironment flawedDocument) (.ok "") (.ok (.int 1)) =
      (.ok file, run) :=
    Prod.ext hfile rfl
  refine ⟨file, run, hgenerate, by decide +kernel, by decide +kernel, ?_⟩
  exact nothing_lost rfl hgenerate

end Generation

end SchemaTypes
