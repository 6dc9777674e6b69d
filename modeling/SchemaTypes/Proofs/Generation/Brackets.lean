import SchemaTypes.Proofs.Emission.Brackets
import SchemaTypes.Proofs.Generation.Imports
import SchemaTypes.Proofs.Generation.Totality
import SchemaTypes.Proofs.Schema.Keeping

/-!
# Brackets of a file

Whatever is wrong with a document, the brackets of its file are nested, as long as the texts in the
document have no brackets and no comments are asked for (`brackets_nested`).

All declarations of a file are well bracketed, hoisted or not, so it makes no difference which of
them get into the file and in what order. No declaration is cut off, for no schema of a well-typed
document fails. What is left is the head, with the paths of the packages that are needed, the name
of the package of the file and the remark on its origin.
-/

namespace SchemaTypes

open Text

/-! ## Words of a document -/

/-- The texts in a value are in the values around it. -/
theorem Json.hereditary_throughout {P : String → Prop} (hblank : P "") :
    Hereditary (Throughout P) where
  blank := .text hblank
  nothing := .object (List.forall_mem_nil _) (List.forall_mem_nil _)
  member h := (throughout_object_iff.mp h).2
  item h := throughout_list_iff.mp h

theorem Json.bracketFree_display {value : Json} (htext : value.IsText)
    (h : value.Throughout BracketFree) : BracketFree value.display := by
  obtain ⟨text, rfl⟩ := htext
  exact throughout_text_iff.mp h

/-- What is kept of texts without brackets has none. -/
theorem Schema.Keeps.unbracketed {s : Schema} (h : s.Keeps (Json.Throughout BracketFree))
    (htextual : s.keywords.Textual) : s.Unbracketed where
  names property hproperty := by
    rcases h.properties with hnone | ⟨named, hnamed, hnames⟩
    · rw [hnone] at hproperty
      cases hproperty
    · have hkey : property.1 ∈ Entries.names named := hnames ▸ List.mem_map_of_mem hproperty
      obtain ⟨m, hm, hsame⟩ := List.mem_map.mp hkey
      exact hsame ▸ (Json.throughout_object_iff.mp hnamed).1 m hm
  ref ref href := Json.bracketFree_display (htextual.ref ref href) (h.ref ref href)
  types type htype := by
    rcases h.types type htype with rfl | htext
    · decide
    · exact Json.throughout_text_iff.mp htext
  format _ := Json.bracketFree_display htextual.format h.format
  const value hvalue := h.const value hvalue
  description text htext := Json.throughout_text_iff.mp (htext ▸ h.description)

/-- A textual document without brackets in its texts has schemas without brackets. -/
theorem Document.unbracketed_of_load {value : Json} (h : value.Throughout BracketFree)
    {d : Document} (hload : load value = .ok d) (htextual : d.Textual) :
    ∀ e ∈ d.entries, e.2.Throughout Schema.Unbracketed := by
  have hkeeps := keeps_of_load (Json.hereditary_throughout (by decide)) h hload
  exact fun e he t ht ↦ (hkeeps e he t ht).unbracketed (htextual e he t ht)

theorem Environment.bracketedPath_of_isText {env : Environment}
    (htext : env.options.optionImportPath.IsText)
    (h : env.options.optionImportPath.Throughout BracketFree) : env.BracketedPath := by
  obtain ⟨path, hpath⟩ := htext
  intro package hpackage
  rw [hpath] at hpackage h
  obtain rfl := Except.ok.inj hpackage
  exact (Json.throughout_text_iff.mp h).wellBracketed

namespace Generation

open Declaration Event Schedule

variable {env : Environment} {commandLine : Except FileTree.PathError String} {es : List Entry}
  {r : Run} {ignored : List String} {w : Json} {file : SourceFile} {run : Run}

/-! ## Outputs of a course without failures -/

/-- A declaration that does not fail is emitted to its end, and its text is kept. -/
theorem of_failure_eq_none {e : Entry} (h : (emitEntry env e r).1.failure = none) :
    (e.declaration env r.memory).failure? = none ∧
      (emitEntry env e r).1.written = (e.declaration env r.memory).text := by
  obtain ⟨htake, hended⟩ := Run.take_eq_of_obstacle_eq_none (Option.map_eq_none_iff.mp h)
  exact ⟨hended, congrArg Performance.text htake⟩

/-- What is ensured of declarations holds of their outputs if none of them fails. -/
theorem forall_mem_outputs_of_ended {post : Output → Prop}
    (hended : ∀ outcome ∈ outcomes env es r, outcome.failure = none)
    (hemit : ∀ e ∈ es, Emit.Ensures (fun _ ↦ True) (e.declaration env) fun _ ↦ post) :
    ∀ o ∈ outputs env es r, post o := by
  refine List.forall_mem_map.mpr fun t ht ↦ ?_
  have hentry : t.1 ∈ es := by
    rw [← map_fst_turns (emitEntry env) es r]
    exact List.mem_map_of_mem ht
  have hsuccess : (emitEntry env t.1 t.2).1.failure = none := by
    refine hended _ ?_
    rw [outcomes_eq_map]
    exact List.mem_map_of_mem ht
  have hresult := Emission.failure?_eq_none_iff.mp (of_failure_eq_none hsuccess).1
  exact (hemit t.1 hentry t.2.memory () trivial hresult).2

/-- What happens while schemas are emitted is told by one of them in its turn. -/
theorem exists_of_mem_history {event : Event} (h : event ∈ history env ignored w) :
    ∃ t ∈ documentTurns env ignored w, event ∈ (t.1.declaration env t.2.memory).events := by
  obtain ⟨t, ht, hundergone⟩ := List.mem_flatMap.mp h
  exact ⟨t, ht, (Run.undergone_prefix t.2 _).subset hundergone⟩

section

variable (hignored : env.options.ignoreSchemas = .ok ignored)
  (h : generateFile env commandLine (.ok w) = (.ok file, run))

include hignored h

/-- Without failures the text of a schema is that of an output. -/
theorem exists_output_of_mem_declared
    (hended : ∀ outcome ∈ documentOutcomes env ignored w, outcome.failure = none)
    {d : String × String} (hd : d ∈ file.declared) :
    ∃ o ∈ outputs env (entries env ignored).1 (beginning env ignored w), d.2 = o.text := by
  rw [declared_generateFile hignored h] at hd
  obtain ⟨outcome, houtcome, rfl, -⟩ :=
    exists_of_mem_results (nodup_names_documentOutcomes env ignored w) hd
  have hsuccess := hended outcome houtcome
  rw [documentOutcomes, outcomes_eq_map] at houtcome
  obtain ⟨t, ht, rfl⟩ := List.mem_map.mp houtcome
  exact ⟨_, List.mem_map_of_mem ht, (of_failure_eq_none hsuccess).2⟩

/-- A hoisted declaration has been handed over by a schema. -/
theorem exists_output_of_mem_hoisted {d : String × String} (hd : d ∈ file.hoisted) :
    ∃ o ∈ outputs env (entries env ignored).1 (beginning env ignored w), d ∈ o.declarations := by
  rw [hoisted_generateFile hignored h] at hd
  have hregistered := (items_generateFile_subset hignored h).2 d (List.mem_filter.mp hd).1
  obtain ⟨event, hevent, hd⟩ := List.mem_filterMap.mp hregistered
  obtain ⟨t, ht, htold⟩ := exists_of_mem_history hevent
  exact ⟨_, List.mem_map_of_mem ht, List.mem_filterMap.mpr ⟨event, htold, hd⟩⟩

/-- The head lists packages that schemas have asked for. -/
theorem exists_head_eq :
    ∃ (keys : List Json.Key) (line : String), remark env.options commandLine = .ok line ∧
      file.head = fileHead env.options.packageName (keys.map fun key ↦ key.toJson.display) line ∧
      ∀ key ∈ keys, ∃ o ∈ outputs env (entries env ignored).1 (beginning env ignored w),
        key ∈ o.packages := by
  obtain ⟨hhead, -, -, -⟩ :=
    of_runFrom_putTogether_eq_ok (of_generateFile_eq_ok_of_putTogether hignored h)
  obtain ⟨keys, line, himports, hline, hfront⟩ := exists_of_head_eq_ok hhead
  refine ⟨keys, line, hline, hfront, fun key hkey ↦ ?_⟩
  rw [Run.mem_of_imports_eq_ok himports, closing, emitted, ← Run.applyAll_append,
    Run.mem_required_applyAll, required_beginning, or_iff_right List.not_mem_nil] at hkey
  obtain ⟨event, hevent, hneeds⟩ := List.mem_filterMap.mp hkey
  -- Reports of failures and of hoisted declarations in the way ask for nothing.
  rcases List.mem_append.mp hevent with hevent | hshadows
  · rcases List.mem_append.mp hevent with hemitted | hfailure
    · obtain ⟨t, ht, htold⟩ := exists_of_mem_history hemitted
      exact ⟨_, List.mem_map_of_mem ht, List.mem_filterMap.mpr ⟨event, htold, hneeds⟩⟩
    · obtain ⟨issue, -, hreport⟩ := List.mem_flatMap.mp hfailure
      rcases List.mem_cons.mp hreport with rfl | hreport
      · cases hneeds
      · obtain rfl := List.mem_singleton.mp hreport
        cases hneeds
  · obtain ⟨d, -, rfl⟩ := List.mem_map.mp hshadows
    cases hneeds

end

/-! ## The file -/

theorem wellBracketed_fileHead {package remark : String} {imports : List String}
    (hpackage : WellBracketed package) (hremark : WellBracketed remark)
    (himports : ∀ path ∈ imports, WellBracketed path) :
    WellBracketed (fileHead package imports remark) := by
  have hlines : ∀ path ∈ imports, WellBracketed ("\t\"" ++ path ++ "\"\n") :=
    fun path hpath ↦ .between (by decide) (himports path hpath)
  refine .append (.append (.append (.append ?_ (by decide)) hpackage) (by decide)) ?_
  · split
    · decide
    · exact hremark.append (by decide)
  · split
    · decide
    · exact .between (by decide) (wellBracketed_join (List.forall_mem_map.mpr hlines))

/-- A file is well bracketed if the outputs of its schemas and what else stands in its head are. -/
theorem wellBracketed_text (hignored : env.options.ignoreSchemas = .ok ignored)
    (h : generateFile env commandLine (.ok w) = (.ok file, run))
    (hended : ∀ outcome ∈ documentOutcomes env ignored w, outcome.failure = none)
    (houtputs : ∀ o ∈ outputs env (entries env ignored).1 (beginning env ignored w), o.Bracketed)
    (hpackage : WellBracketed env.options.packageName)
    (hremark : ∀ line, remark env.options commandLine = .ok line → WellBracketed line) :
    WellBracketed file.text := by
  have hdeclarations : ∀ d ∈ file.hoisted ++ file.declared, WellBracketed d.2 := by
    intro d hd
    rcases List.mem_append.mp hd with hd | hd
    · obtain ⟨o, ho, hmem⟩ := exists_output_of_mem_hoisted hignored h hd
      exact (houtputs o ho).declarations d hmem
    · obtain ⟨o, ho, htext⟩ := exists_output_of_mem_declared hignored h hended hd
      exact htext ▸ (houtputs o ho).text
  have hbody : WellBracketed file.body := wellBracketed_join (List.forall_mem_map.mpr hdeclarations)
  obtain ⟨keys, line, hline, hfront, hkeys⟩ := exists_head_eq hignored h
  have hhead : WellBracketed file.head := by
    rw [hfront]
    refine wellBracketed_fileHead hpackage (hremark line hline) (List.forall_mem_map.mpr ?_)
    intro key hkey
    obtain ⟨o, ho, hpackage⟩ := hkeys key hkey
    exact (houtputs o ho).packages key hpackage
  exact .append (.append (.append (wellBracketed_trimFeeds_iff.mpr hhead) (by decide))
    (wellBracketed_trimFeeds_iff.mpr hbody)) (by decide)

theorem wellBracketed_remark {options : Options} {commandLine line : String}
    (hcommand : options.generationComment = true → WellBracketed commandLine)
    (h : remark options (.ok commandLine) = .ok line) : WellBracketed line := by
  unfold remark at h
  split at h
  next hcomment =>
    obtain rfl := Except.ok.inj h
    exact .between (by decide) (hcommand hcomment)
  · obtain rfl := Except.ok.inj h
    decide

/-- **The brackets of a file are nested, whatever issues there are.** A file comes of a well-typed
document and a well-typed configuration without comments, and it is well bracketed if the texts in
the document have no brackets, nor do the settings that are written into the file. The command line,
which is in the remark on the origin, may have brackets if they are nested. -/
theorem brackets_nested {value : Json} {config : Config} {tables : List DocTable}
    (hvalue : Document.WellTyped value) (hconfig : config.WellTyped)
    (htables : ∀ t ∈ tables, t.WellTyped)
    (hcomments : config.value? .docComments = some (.bool false))
    (hwords : value.Throughout BracketFree)
    (hsettings : ∀ s ∈ [Setting.packageName, .optionImportPath], ∀ setting,
      config.value? s = some setting → setting.Throughout BracketFree) :
    ∃ document options env,
      Document.load value = .ok document ∧ config.options = .ok options ∧
      environment document options tables = .ok env ∧
      ∀ (commandLine : String) (processors : Nat),
        (options.generationComment = true → WellBracketed commandLine) →
        ∃ w code run, config.workers processors = .ok w ∧
          generate env (.ok commandLine) (.ok w) = (.ok code, run) ∧ WellBracketed code := by
  obtain ⟨document, env, ignored, hload, hoptions, henv, hignored, hsound, hfiles⟩ :=
    exists_untroubled hvalue hconfig htables
  obtain ⟨rfl, -, -⟩ := of_environment_eq_ok henv
  obtain ⟨⟨package, hpackage, hname⟩, hpathSet, docs, hdocs, hoff⟩ :=
    Config.of_options_eq_ok hoptions
  rw [hcomments] at hdocs
  obtain rfl := Option.some.inj hdocs
  have hentries := Document.unbracketed_of_load hwords hload hsound.document
  have himport := env.bracketedPath_of_isText hsound.optionPath (hsettings _ (by simp) _ hpathSet)
  have hpackageFree : BracketFree env.options.packageName := by
    rw [hname]
    exact Json.bracketFree_display (hconfig.admits hpackage) (hsettings _ (by simp) _ hpackage)
  refine ⟨env.document, env.options, env, hload, hoptions, henv, ?_⟩
  intro commandLine processors hcommand
  obtain ⟨w, file, run, hworkers, hended, hfile, -⟩ := hfiles commandLine processors
  have houtputs := forall_mem_outputs_of_ended hended fun e he ↦
    Schema.ensures_emitNamed_bracketed (lettered_snowflakes henv) himport hoff hentries
      (forall_mem_entries hentries e he) e.name
  refine ⟨w, file.text, run, hworkers, by rw [generate, hfile]; rfl, ?_⟩
  exact wellBracketed_text hignored hfile hended houtputs hpackageFree.wellBracketed
    fun line hline ↦ wellBracketed_remark hcommand hline

/-- A document with schemas that refer to one another in a circle, or to nothing at all, with two
types at once, with a list of nothing, and with what is refused. -/
def troubledDocument : Json :=
  .object [("components", .object [("schemas", .object [
    ("Left", .object [("$ref", .text "#/components/schemas/Right")]),
    ("Right", .object [("$ref", .text "#/components/schemas/Left")]),
    ("Nobody", .object [("$ref", .text "#/components/schemas/Missing")]),
    ("Both", .object [("type", .list [.text "string", .text "integer"])]),
    ("Guild", .object [("type", .text "object"), ("properties", .object [
      ("tags", .object [("type", .text "array")])])]),
    ("Refused", .object [("not", .object [("type", .text "string")])])])])]

theorem wellTyped_troubledDocument : Document.WellTyped troubledDocument := by
  have hplain : ∀ type, Schema.WellTyped (.object [("type", .text type)]) := fun type ↦
    .object (by constructor <;> simp) (by simp) (by simp) (by simp)
  have hboth : Schema.WellTyped (.object [("type", .list [.text "string", .text "integer"])]) :=
    .object (by constructor <;> simp [Json.IsList]) (by simp) (by simp) (by simp)
  have hrefused : Schema.WellTyped (.object [("not", .object [("type", .text "string")])]) :=
    .object (by constructor <;> simp) (by simp) (by simp [hplain]) (by simp)
  have hguild : Schema.WellTyped (.object [("type", .text "object"), ("properties", .object [
      ("tags", .object [("type", .text "array")])])]) := by
    refine .object (by constructor <;> simp [Json.IsObject]) ?_ (by simp) (by simp)
    rintro _ ⟨⟩ _ ⟨⟩
    exact List.forall_mem_singleton.mpr (hplain "array")
  refine ⟨_, rfl, _, _, rfl, rfl, ?_, by simp⟩
  exact List.forall_mem_cons.mpr ⟨.reference _, List.forall_mem_cons.mpr ⟨.reference _,
    List.forall_mem_cons.mpr ⟨.reference _, List.forall_mem_cons.mpr ⟨hboth,
      List.forall_mem_cons.mpr ⟨hguild, List.forall_mem_singleton.mpr hrefused⟩⟩⟩⟩⟩

/-- What a troubled document is loaded as. -/
def troubledSchemas : List (String × Schema) := [
  ("Left", .reference (.text "#/components/schemas/Right") 1),
  ("Right", .reference (.text "#/components/schemas/Left") 2),
  ("Nobody", .reference (.text "#/components/schemas/Missing") 3),
  ("Both", .leaf { Schema.Keywords.blank 4 with types := ["string", "integer"] }),
  ("Guild", .node { Schema.Keywords.blank 5 with types := ["object"] }
    [("tags", .leaf { Schema.Keywords.blank 6 with types := ["array"] })] none [] [] [] none),
  ("Refused", .node (.blank 7) [] none [] [] []
    (some (.leaf { Schema.Keywords.blank 8 with types := ["string"] })))]

/-- What is wrong is said in remarks between brackets, and these are closed. -/
theorem brackets_nested_troubled :
    ∃ code run, Document.load troubledDocument = .ok ⟨troubledSchemas, []⟩ ∧
      generate (plainEnvironment ⟨troubledSchemas, []⟩) (.ok "openapi_to_code") (.ok (.int 4)) =
        (.ok code, run) ∧ run.issues.count = 4 ∧ WellBracketed code := by
  have hsettings : ∀ s ∈ [Setting.packageName, .optionImportPath], ∀ setting,
      Config.default.value? s = some setting → setting.Throughout BracketFree := by
    intro s hs setting hsetting
    obtain rfl : s.initial = setting := Option.some.inj hsetting
    simp only [List.mem_cons, List.not_mem_nil, or_false] at hs
    rcases hs with rfl | rfl <;> exact .text (by decide)
  have htables : ∀ t ∈ ([] : List DocTable), t.WellTyped := List.forall_mem_nil _
  have hwords : troubledDocument.Throughout BracketFree := by
    simp only [troubledDocument, Json.throughout_object_iff, Json.throughout_list_iff,
      Json.throughout_text_iff, List.forall_mem_cons, List.not_mem_nil, false_imp_iff, implies_true,
      and_true]
    decide
  obtain ⟨document, options, env, hload, hoptions, henv, hgenerate⟩ :=
    brackets_nested wellTyped_troubledDocument Config.wellTyped_default htables rfl hwords hsettings
  have hloaded : Document.load troubledDocument = .ok ⟨troubledSchemas, []⟩ := by cbv
  obtain rfl : ⟨troubledSchemas, []⟩ = document := Except.ok.inj (hloaded.symm.trans hload)
  obtain rfl : Options.initial = options := Except.ok.inj hoptions
  obtain rfl : plainEnvironment _ = env := Except.ok.inj henv
  obtain ⟨w, code, run, hworkers, hfile, hnested⟩ := hgenerate "openapi_to_code" 4 fun _ ↦ by decide
  obtain rfl : .int 4 = w := Except.ok.inj hworkers
  have hcount : (generate (plainEnvironment ⟨troubledSchemas, []⟩) (.ok "openapi_to_code")
      (.ok (.int 4))).2.issues.count = 4 := by
    decide +kernel
  rw [hfile] at hcount
  exact ⟨code, run, hload, hfile, hcount, hnested⟩

end Generation

end SchemaTypes
