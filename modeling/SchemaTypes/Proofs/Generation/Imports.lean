import SchemaTypes.Proofs.Emission.Memory
import SchemaTypes.Proofs.Emission.Requirements
import SchemaTypes.Proofs.Generation.Blocks

/-!
# The imports of a file

In a run without issues the file imports the packages that its declarations use, and no others
(`imports_exact`). A package is asked for where the name of one of its members is written, and the
text that it is written into gets into the file: nothing is lost, and the line feeds that are cut
off at the ends are no part of a name.

That goes for names that come of the rules. A document can have the same letters in its own words,
and then they get into the file without an import; a description may have a capital in front, for
its first letter is written small (`not_imports_exact_of_capital`).
-/

namespace SchemaTypes.Generation

open Event Schedule Text Declaration

variable {env : Environment} {commandLine : Except FileTree.PathError String}
  {ignored : List String} {w : Json} {file : SourceFile} {run : Run}

/-! ## Outputs of a clean course -/

/-- What the declarations of entries leave behind that are emitted in turn. -/
def outputs (env : Environment) (es : List Entry) (r : Run) : List Output :=
  (turns (emitEntry env) es r).map fun t ↦ (t.1.declaration env t.2.memory).output

namespace Clean

variable {es : List Entry} {r : Run} (h : Clean env es r)

include h

/-- What is ensured of declarations holds of their outputs, if only good tables are remembered. -/
theorem forall_mem_outputs {good : DocTable → Prop} {post : Output → Prop}
    (hemit : ∀ e ∈ es, Emit.Ensures (Correlator.Memory.Keeps good) (e.declaration env) fun _ ↦ post)
    (hr : r.memory.Keeps good) : ∀ o ∈ outputs env es r, post o := by
  have hturns := fun t ht ↦ (h.turn (t := t) ht).2
  clear h
  refine List.forall_mem_map.mpr ?_
  -- The run of the next turn remembers what this one has remembered and learnt.
  induction es generalizing r with
  | nil => exact List.forall_mem_nil _
  | cons e rest ih =>
    rw [turns] at hturns ⊢
    obtain ⟨⟨hundergone, hended⟩, hturns⟩ := List.forall_mem_cons.mp hturns
    obtain ⟨he, hrest⟩ := List.forall_mem_cons.mp hemit
    obtain ⟨hlater, hpost⟩ := he r.memory () hr (Emission.failure?_eq_none_iff.mp hended)
    refine List.forall_mem_cons.mpr ⟨hpost, ih hrest ?_ hturns⟩
    intro found hfound
    rw [run_emitEntry, hundergone, Run.mem_memory_applyAll] at hfound
    exact hlater found ((Schema.remembers_emitNamed env e.name e.schema r.memory found).mpr hfound)

theorem emissionEvents_eq : emissionEvents env es r =
    (turns (emitEntry env) es r).flatMap fun t ↦ (t.1.declaration env t.2.memory).events :=
  List.flatMap_congr fun _ ht ↦ (h.turn ht).2.1

theorem requirements_eq :
    requirements (emissionEvents env es r) = (outputs env es r).flatMap Output.packages := by
  rw [h.emissionEvents_eq, outputs, List.flatMap_map]
  exact List.filterMap_flatMap

theorem registrations_eq :
    registrations (emissionEvents env es r) = (outputs env es r).flatMap Output.declarations := by
  rw [h.emissionEvents_eq, outputs, List.flatMap_map]
  exact List.filterMap_flatMap

/-- The outputs of a clean course report no issue. -/
theorem issues_eq_nil : ∀ o ∈ outputs env es r, o.issues = [] := by
  have hreports : (outputs env es r).flatMap Output.issues = [] := by
    rw [← (Run.recorded_eq_nil_iff.mp h.recorded).1, h.emissionEvents_eq, outputs,
      List.flatMap_map]
    exact List.filterMap_flatMap.symm
  exact List.flatMap_eq_nil_iff.mp hreports

end Clean

/-! ## What a file uses -/

/-- A file uses a package in its head, or in one of its declarations. -/
theorem usedIn_text_iff {p : Package} (h : ∀ d ∈ file.hoisted ++ file.declared, EndsWord d.2) :
    p.UsedIn file.text ↔
      p.UsedIn file.head ∨ ∃ d ∈ file.hoisted ++ file.declared, p.UsedIn d.2 := by
  have hends : ∀ text ∈ (file.hoisted ++ file.declared).map Prod.snd, EndsWord text :=
    List.forall_mem_map.mpr h
  rw [SourceFile.text, Package.usedIn_closing_iff (by decide),
    Package.usedIn_between_iff (by decide), Package.usedIn_trimFeeds_iff,
    Package.usedIn_trimFeeds_iff, SourceFile.body, Package.usedIn_join_iff hends]
  simp only [List.mem_map, exists_exists_and_eq_and]

section

variable (hignored : env.options.ignoreSchemas = .ok ignored)
  (h : generateFile env commandLine (.ok w) = (.ok file, run)) (hcount : run.issues.count = 0)

include hignored h hcount

/-- Without issues the declarations of a file are those that the outputs of its schemas hold. -/
theorem exists_mem_declarations_iff {P : String → Prop} :
    (∃ d ∈ file.hoisted ++ file.declared, P d.2) ↔
      ∃ o ∈ outputs env (entries env ignored).1 (beginning env ignored w),
        P o.text ∨ ∃ d ∈ o.declarations, P d.2 := by
  obtain ⟨hclean, -, -, -⟩ := clean_generateFile hignored h hcount
  have hcomplete := complete_of_count_eq_zero hignored h hcount
  have hhoisted : ∀ d, d ∈ file.hoisted ↔
      ∃ o ∈ outputs env (entries env ignored).1 (beginning env ignored w), d ∈ o.declarations := by
    intro d
    rw [hcomplete.mem_hoisted, history, hclean.registrations_eq, List.mem_flatMap]
  have hdeclared : (∃ d ∈ file.declared, P d.2) ↔
      ∃ o ∈ outputs env (entries env ignored).1 (beginning env ignored w), P o.text := by
    rw [hcomplete.declared_eq, outputs, documentTurns]
    simp only [List.mem_map, exists_exists_and_eq_and]
    rfl
  constructor
  · rintro ⟨d, hd, hP⟩
    rcases List.mem_append.mp hd with hd | hd
    · obtain ⟨o, ho, hmem⟩ := (hhoisted d).mp hd
      exact ⟨o, ho, .inr ⟨d, hmem, hP⟩⟩
    · obtain ⟨o, ho, htext⟩ := hdeclared.mp ⟨d, hd, hP⟩
      exact ⟨o, ho, .inl htext⟩
  · rintro ⟨o, ho, htext | ⟨d, hd, hP⟩⟩
    · obtain ⟨d, hd, hP⟩ := hdeclared.mpr ⟨o, ho, htext⟩
      exact ⟨d, List.mem_append_right _ hd, hP⟩
    · exact ⟨d, List.mem_append_left _ ((hhoisted d).mpr ⟨o, ho, hd⟩), hP⟩

theorem mem_required_iff {key : Json.Key} :
    key ∈ run.required ↔
      ∃ o ∈ outputs env (entries env ignored).1 (beginning env ignored w), key ∈ o.packages := by
  obtain ⟨hclean, hrun, -, -⟩ := clean_generateFile hignored h hcount
  rw [hrun, Run.mem_required_applyAll, required_beginning, or_iff_right List.not_mem_nil, history,
    hclean.requirements_eq, List.mem_flatMap]

/-- Without issues the declarations of a file use the packages that the run needs. -/
theorem exists_usedIn_iff
    (hexact : ∀ o ∈ outputs env (entries env ignored).1 (beginning env ignored w),
      o.Exact env ∧ EndsWord o.text) :
    (∀ d ∈ file.hoisted ++ file.declared, EndsWord d.2) ∧
      (∀ key ∈ run.required, ∃ p : Package, p.IsKey env key) ∧
      ∀ p : Package, (∃ d ∈ file.hoisted ++ file.declared, p.UsedIn d.2) ↔
        ∃ key ∈ run.required, p.IsKey env key := by
  obtain ⟨hclean, -, -, -⟩ := clean_generateFile hignored h hcount
  have haccounted : ∀ o ∈ outputs env (entries env ignored).1 (beginning env ignored w),
      o.Accounted env :=
    fun o ho ↦ (hexact o ho).1 (hclean.issues_eq_nil o ho)
  refine ⟨fun d hd ↦ ?_, fun key hkey ↦ ?_, fun p ↦ ?_⟩
  · by_contra hends
    obtain ⟨o, ho, htext | ⟨e, he, hdeclaration⟩⟩ :=
      (exists_mem_declarations_iff hignored h hcount (P := fun text ↦ ¬ EndsWord text)).mp
        ⟨d, hd, hends⟩
    · exact htext (hexact o ho).2
    · exact hdeclaration ((haccounted o ho).ends e he)
  · obtain ⟨o, ho, hpackage⟩ := (mem_required_iff hignored h hcount).mp hkey
    exact (haccounted o ho).keys key hpackage
  · rw [exists_mem_declarations_iff hignored h hcount]
    simp only [mem_required_iff hignored h hcount]
    constructor
    · rintro ⟨o, ho, huses⟩
      obtain ⟨key, hkey, hp⟩ := ((haccounted o ho).uses_iff p).mp huses
      exact ⟨key, ⟨o, ho, hkey⟩, hp⟩
    · rintro ⟨key, ⟨o, ho, hkey⟩, hp⟩
      exact ⟨o, ho, ((haccounted o ho).uses_iff p).mpr ⟨key, hkey, hp⟩⟩

end

/-! ## The head -/

/-- A head uses a package only if its remark, the name of its own package or one of the paths that
it imports does. -/
theorem exists_of_usedIn_fileHead {p : Package} {package remark : String} {imports : List String}
    (hpackage : ¬ p.UsedIn package) (hremark : ¬ p.UsedIn remark)
    (h : p.UsedIn (fileHead package imports remark)) : ∃ path ∈ imports, p.UsedIn path := by
  have hnone : ∀ text : String, '.' ∉ text.toList → ¬ p.UsedIn text :=
    fun _ ↦ Package.not_usedIn_of_not_mem
  have hfront : ∀ front, EndsWord front → ¬ p.UsedIn front →
      ¬ p.UsedIn (front ++ "package " ++ package) := by
    intro front hends hfront
    rw [Package.usedIn_append_iff (.inl (endsWord_of_isOpening (by decide) _)),
      Package.usedIn_append_iff (.inl hends)]
    exact not_or.mpr ⟨not_or.mpr ⟨hfront, hnone _ (by decide)⟩, hpackage⟩
  rw [fileHead, Package.usedIn_between_iff (by decide)] at h
  rcases h with hline | himports
  · refine absurd hline (hfront _ ?_ ?_)
    · split
      · exact fun c hc ↦ by cases hc
      · exact endsWord_of_isOpening (by decide) _
    · split
      · exact hnone _ (by simp)
      · rwa [Package.usedIn_closing_iff (by decide)]
  · split at himports
    · exact absurd himports (hnone _ (by simp))
    have hends : ∀ line ∈ imports.map fun path ↦ "\t\"" ++ path ++ "\"\n", EndsWord line :=
      List.forall_mem_map.mpr fun path _ ↦ endsWord_of_isOpening (by decide) _
    rw [Package.usedIn_closing_iff (by decide), Package.usedIn_opening_iff (by decide),
      Package.usedIn_join_iff hends] at himports
    obtain ⟨_, hline, hused⟩ := himports
    obtain ⟨path, hpath, rfl⟩ := List.mem_map.mp hline
    rw [Package.usedIn_closing_iff (by decide), Package.usedIn_opening_iff (by decide)] at hused
    exact ⟨path, hpath, hused⟩

/-- What a head is made of. -/
theorem exists_of_head_eq_ok {options : Options} {front : String}
    (h : head options commandLine run = .ok front) :
    ∃ keys line, run.imports = .ok keys ∧ remark options commandLine = .ok line ∧
      front = fileHead options.packageName (keys.map fun key ↦ key.toJson.display) line := by
  obtain ⟨keys, hkeys, h⟩ := exists_of_bind_eq_ok h
  obtain ⟨line, hline, h⟩ := exists_of_bind_eq_ok h
  cases h
  cases himports : run.imports with
  | error e =>
    rw [himports] at hkeys
    cases hkeys
  | ok imports =>
    rw [himports] at hkeys
    cases hkeys
    cases hremark : remark options commandLine with
    | error e =>
      rw [hremark] at hline
      cases hline
    | ok text =>
      rw [hremark] at hline
      cases hline
      exact ⟨_, _, rfl, rfl, rfl⟩

/-! ## Imports -/

/-- What is in an environment. -/
theorem of_environment_eq_ok {document : Document} {options : Options} {tables : List DocTable}
    (h : environment document options tables = .ok env) :
    env.document = document ∧ env.options = options ∧
      ∀ t ∈ env.correlator.tables, t.1 ∈ tables := by
  obtain ⟨correlator, hcorrelator, h⟩ := exists_of_bind_eq_ok h
  cases h
  exact ⟨rfl, rfl, Correlator.mem_of_ofTables_eq_ok hcorrelator⟩

theorem exists_of_generate_eq_ok {workers : Except Mismatch Json} {code : String}
    (h : generate env commandLine workers = (.ok code, run)) :
    ∃ file, generateFile env commandLine workers = (.ok file, run) ∧ code = file.text := by
  unfold generate at h
  split at h
  next result last hfile =>
    cases result with
    | error e => cases h
    | ok file =>
      cases h
      exact ⟨file, hfile, rfl⟩

/-- The words of a document, the descriptions in tables and the head of the file have no name of a
member of a package in them. -/
structure Unqualified (env : Environment) (commandLine : Except FileTree.PathError String) :
    Prop where
  document : ∀ e ∈ env.document.entries, e.2.Throughout Schema.Unqualified
  tables : ∀ t ∈ env.correlator.tables, t.1.Remarks fun remark ↦ ¬ NamesPackageCapitalized remark
  package : ¬ NamesPackage env.options.packageName
  remark : ∀ line, remark env.options commandLine = .ok line → ¬ NamesPackage line

section

variable {path : String} (hsnowflakes : env.snowflakes.Lettered)
  (hwords : Unqualified env commandLine) (hpath : env.options.optionImportPath = .text path)
  (hdistinct : path ≠ "time")

include hsnowflakes hwords hpath hdistinct

theorem exact_of_mem_outputs {es : List Entry} {r : Run} (hclean : Clean env es r)
    (hes : ∀ e ∈ es, e.schema.Throughout Schema.Unqualified) (hr : r.memory = []) :
    ∀ o ∈ outputs env es r, o.Exact env ∧ EndsWord o.text := by
  have hkeys : env.options.optionImportPath.asKey ≠ .ok (.text "time") := by
    rw [hpath]
    rintro ⟨⟩
    exact hdistinct rfl
  have hdocs := Environment.documents_remarks hwords.tables
  have hemit : ∀ e ∈ es, Emit.Ensures (Correlator.Memory.Keeps (DocTable.Remarks _))
      (e.declaration env) fun _ o ↦ o.Exact env ∧ EndsWord o.text := fun e he ↦
    Schema.ensures_emitNamed_exact hkeys hsnowflakes (fun _ h ↦ h) hdocs hwords.document (hes e he)
      e.name
  refine hclean.forall_mem_outputs hemit ?_
  rw [hr]
  exact List.forall_mem_nil _

/-- In a run without issues the packages that are listed in the head are those that the file uses.
-/
theorem exists_keys_eq_ok (htime : ¬ Contains "time.Time" path)
    (hignored : env.options.ignoreSchemas = .ok ignored)
    (h : generateFile env commandLine (.ok w) = (.ok file, run)) (hcount : run.issues.count = 0) :
    ∃ keys line, run.imports = .ok keys ∧ remark env.options commandLine = .ok line ∧
      file.head = fileHead env.options.packageName (keys.map fun key ↦ key.toJson.display) line ∧
      ∀ p : Package, (∃ key ∈ keys, p.IsKey env key) ↔ p.UsedIn file.text := by
  have hkey : env.options.optionImportPath.asKey = .ok (.text path) := by
    rw [hpath]
    rfl
  obtain ⟨hclean, -, hhead, -⟩ := clean_generateFile hignored h hcount
  obtain ⟨keys, line, himports, hline, hfront⟩ := exists_of_head_eq_ok hhead
  have hes : ∀ e ∈ (entries env ignored).1, e.schema.Throughout Schema.Unqualified :=
    forall_mem_entries hwords.document
  obtain ⟨hends, hknown, hused⟩ := exists_usedIn_iff hignored h hcount
    (exact_of_mem_outputs hsnowflakes hwords hpath hdistinct hclean hes
      (memory_beginning env ignored w))
  have hkeys : ∀ key ∈ keys, key = .text "time" ∨ key = .text path := by
    intro key hmem
    obtain ⟨p, hp⟩ := hknown key ((Run.mem_of_imports_eq_ok himports).mp hmem)
    cases p with
    | time => exact .inl hp
    | option => exact .inr (Except.ok.inj (hp.symm.trans hkey))
  refine ⟨keys, line, himports, hline, hfront, fun p ↦ ?_⟩
  simp only [Run.mem_of_imports_eq_ok himports]
  rw [usedIn_text_iff hends, ← hused p]
  refine (or_iff_right_of_imp fun hhead ↦ ?_).symm
  rw [hfront] at hhead
  -- A path in the head is that of a package that the declarations use.
  obtain ⟨_, hprinted, hpathUsed⟩ := exists_of_usedIn_fileHead
    (Package.not_usedIn_of_not_namesPackage hwords.package)
    (Package.not_usedIn_of_not_namesPackage (hwords.remark line hline)) hhead
  obtain ⟨key, hmem, rfl⟩ := List.mem_map.mp hprinted
  rcases hkeys key hmem with rfl | rfl
  · exact absurd hpathUsed (Package.not_usedIn_of_not_mem (by decide))
  · cases p with
    | time =>
      obtain ⟨word, hword, hcontains⟩ := hpathUsed
      obtain rfl := List.mem_singleton.mp hword
      exact absurd hcontains htime
    | option =>
      rw [hused]
      exact ⟨.text path, (Run.mem_of_imports_eq_ok himports).mp hmem, hkey⟩

end

/-- **The imports of a file are exact.** In a run without issues points in time are imported exactly
if the file names their type, and optional values exactly if it names one of theirs, as long as the
words of the document, the descriptions in tables and the head have no such name in them, and the
path of the package of optional values is another one. -/
theorem imports_exact {document : Document} {options : Options} {tables : List DocTable}
    {workers : Except Mismatch Json} {path code : String}
    (henv : environment document options tables = .ok env)
    (hdocument : ∀ e ∈ document.entries, e.2.Throughout Schema.Unqualified)
    (htables : ∀ t ∈ tables, t.Remarks fun remark ↦ ¬ NamesPackageCapitalized remark)
    (hpackage : ¬ NamesPackage options.packageName)
    (hremark : ∀ line, remark options commandLine = .ok line → ¬ NamesPackage line)
    (hpath : options.optionImportPath = .text path) (hdistinct : path ≠ "time")
    (htime : ¬ Contains "time.Time" path)
    (h : generate env commandLine workers = (.ok code, run)) (hcount : run.issues.count = 0) :
    ∃ imports line body, run.imports = .ok imports ∧ remark options commandLine = .ok line ∧
      code = TypeExpression.trimFeeds (fileHead options.packageName
        (imports.map fun key ↦ key.toJson.display) line) ++ "\n\n" ++ body ∧
      (.text "time" ∈ imports ↔ Contains "time.Time" code) ∧
      (.text path ∈ imports ↔ Contains "option.Optional[" code ∨ Contains "option.Null" code) := by
  obtain ⟨rfl, rfl, hcorrelator⟩ := of_environment_eq_ok henv
  have hwords : Unqualified env commandLine :=
    ⟨hdocument, fun t ht ↦ htables _ (hcorrelator t ht), hpackage, hremark⟩
  obtain ⟨file, hfile, rfl⟩ := exists_of_generate_eq_ok h
  obtain ⟨ignored, w, hignored, rfl⟩ := exists_of_generateFile_eq_ok hfile
  obtain ⟨imports, line, himports, hline, hfront, huses⟩ := exists_keys_eq_ok
    (lettered_snowflakes henv) hwords hpath hdistinct htime hignored hfile hcount
  refine ⟨imports, line, TypeExpression.trimFeeds file.body ++ "\n", himports, hline, ?_, ?_, ?_⟩
  · rw [← hfront, SourceFile.text, String.append_assoc]
  · have htimeUsed := huses .time
    simp only [Package.IsKey, exists_eq_right, Package.UsedIn, Package.members,
      List.mem_singleton, exists_eq_left] at htimeUsed
    exact htimeUsed
  · have hkey : env.options.optionImportPath.asKey = .ok (.text path) := by
      rw [hpath]
      rfl
    have hoptionUsed := huses .option
    simp only [Package.IsKey, hkey, Except.ok.injEq, exists_eq_right', Package.UsedIn,
      Package.members, List.mem_cons, List.not_mem_nil, or_false, exists_eq_or_imp,
      exists_eq_left] at hoptionUsed
    exact hoptionUsed

/-- A document with one schema: an object with an optional point in time. -/
def noticeDocument : Document where
  schemas := [("Notice", .node { Schema.Keywords.blank 1 with types := ["object"] }
    [("sent_at", .leaf { Schema.Keywords.blank 2 with
      types := ["string"], format := .text "date-time",
      description := .text "When the notice was sent" })] none [] [] [] none)]
  responses := []

/-- Both packages are imported and used. -/
theorem imports_exact_notice :
    ∃ code run, generate (plainEnvironment noticeDocument) (.ok "openapi_to_code") (.ok (.int 1)) =
        (.ok code, run) ∧ run.issues.count = 0 ∧
      ∃ imports line body, run.imports = .ok imports ∧
        remark .initial (.ok "openapi_to_code") = .ok line ∧
        code = TypeExpression.trimFeeds (fileHead "main"
          (imports.map fun key ↦ key.toJson.display) line) ++ "\n\n" ++ body ∧
        (.text "time" ∈ imports ↔ Contains "time.Time" code) ∧
        (.text "github.com/diamondburned/arikawa/v3/utils/json/option" ∈ imports ↔
          Contains "option.Optional[" code ∨ Contains "option.Null" code) := by
  let run := (generate (plainEnvironment noticeDocument) (.ok "openapi_to_code") (.ok (.int 1))).2
  let line := "// Code generated by openapi_to_code v1.0.0 : openapi_to_code. DO NOT EDIT."
  let code := line ++ "\n\npackage main\n\nimport (\n" ++
    "\t\"github.com/diamondburned/arikawa/v3/utils/json/option\"\n\t\"time\"\n)\n\n" ++
    "type Notice struct \x7b\n\tSentAt option.Optional[time.Time] " ++
    "`json:\"sent_at,omitempty\"`\n\x7d\n"
  have hcode : (generate (plainEnvironment noticeDocument) (.ok "openapi_to_code")
      (.ok (.int 1))).1 = .ok code := by
    decide +kernel
  have hgenerate : generate (plainEnvironment noticeDocument) (.ok "openapi_to_code")
      (.ok (.int 1)) = (.ok code, run) :=
    Prod.ext hcode rfl
  have hcount : run.issues.count = 0 := by decide +kernel
  have hline : remark .initial (.ok "openapi_to_code") = .ok line := by decide +kernel
  have hremark : ∀ text, remark .initial (.ok "openapi_to_code") = .ok text →
      ¬ NamesPackage text := by
    intro text htext
    rw [hline] at htext
    obtain rfl := Except.ok.inj htext
    decide +kernel
  refine ⟨code, run, hgenerate, hcount, ?_⟩
  refine imports_exact (environment_initial noticeDocument) ?_ (List.forall_mem_nil _) (by decide)
    hremark rfl (by decide) (by decide +kernel) hgenerate hcount
  exact List.forall_mem_singleton.mpr (.of_children (by decide +kernel)
    (List.forall_mem_singleton.mpr (.leaf (by decide +kernel))))

/-- A document with one schema: a set of one constant, described with a capital in front. -/
def capitalDocument : Document where
  schemas := [("Level", .node { Schema.Keywords.blank 1 with types := ["string"] } [] none []
    [.leaf { Schema.Keywords.blank 2 with
      const := some (.text "a"), description := .text "Time.Time of the first event" }] [] none)]
  responses := []

/-- The name of a member of a package may come of a capital that is written small: neither the
document nor the head has it, the comment on the constant has it, and nothing is imported. -/
theorem not_imports_exact_of_capital :
    ∃ line code run,
      (∀ e ∈ capitalDocument.entries, e.2.Throughout (Schema.Worded (fun word ↦ ¬ NamesPackage word)
        (fun value ↦ ¬ NamesPackage value.write) fun remark ↦ ¬ NamesPackage remark)) ∧
      ¬ NamesPackage Options.initial.packageName ∧
      remark .initial (.ok "openapi_to_code") = .ok line ∧ ¬ NamesPackage line ∧
      generate (plainEnvironment capitalDocument) (.ok "openapi_to_code") (.ok (.int 1)) =
        (.ok code, run) ∧ run.issues.count = 0 ∧
      Contains "time.Time" code ∧ run.imports = .ok [] := by
  let run := (generate (plainEnvironment capitalDocument) (.ok "openapi_to_code") (.ok (.int 1))).2
  let line := "// Code generated by openapi_to_code v1.0.0 : openapi_to_code. DO NOT EDIT."
  let code := line ++ "\n\npackage main\n\ntype Level string\n\nconst (\n" ++
    "\t// LevelA: time.Time of the first event.\n\tLevelA Level = \"a\"\n)\n"
  have hcode : (generate (plainEnvironment capitalDocument) (.ok "openapi_to_code")
      (.ok (.int 1))).1 = .ok code := by
    decide +kernel
  refine ⟨line, code, run, ?_, by decide, by decide +kernel, by decide +kernel, Prod.ext hcode rfl,
    by decide +kernel, by decide +kernel, by decide +kernel⟩
  exact List.forall_mem_singleton.mpr (.of_children (by decide +kernel)
    (List.forall_mem_singleton.mpr (.leaf (by decide +kernel))))

end SchemaTypes.Generation
