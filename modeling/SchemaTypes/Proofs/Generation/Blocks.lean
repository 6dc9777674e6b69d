import SchemaTypes.Proofs.Emission.Tellings
import SchemaTypes.Proofs.Generation.Account

/-!
# The blocks of a file

A file is made of blocks: the declarations hoisted out of schemas, and those of the schemas
themselves. No two of them declare one type, and each begins with what it declares
(`blocks_distinct`), also in a run with issues.

That they differ rests on three things: schemas are chosen by their identifiers, the registry holds
a name once, and a hoisted declaration gives way to a schema. That each block declares its name is a
matter of how the text was emitted, of which a failed schema leaves only a part. What a failed
schema has written begins with its declaration all the same, because that is written first.
-/

namespace SchemaTypes

open Declaration Event

/-! ## Texts that are cut off -/

/-- What a performance writes begins with what is written first, if anything is. -/
theorem Run.text_perform_eq_firstText_append (r : Run) (acts : List Act) :
    (r.perform acts).text = "" ∨
      ∃ first rest, Act.firstText? acts = some first ∧ (r.perform acts).text = first ++ rest := by
  induction acts generalizing r with
  | nil => exact .inl rfl
  | cons act rest ih =>
    cases act with
    | write s => exact .inr ⟨s, (r.perform rest).text, rfl, rfl⟩
    | tell event =>
      rw [perform]
      cases r.obstacle? event with
      | some e => exact .inl rfl
      | none => exact ih (r.apply event)

/-- A declaration that a run takes in declares its name wherever it is cut off, unless nothing of it
is left. -/
theorem Run.declares_take {name : String} {x : Emit Unit}
    (h : TypeExpression.WritesDeclaration name x) (r : Run) :
    Declares (r.take x).text name ∨ (r.take x).text = "" ∧ (r.take x).obstacle ≠ none := by
  rcases r.text_perform_eq_firstText_append (x r.memory).acts with
    hempty | ⟨first, rest, hfirst, htext⟩
  · by_cases hobstacle : (r.take x).obstacle = none
    · obtain ⟨htake, hfailure⟩ := take_eq_of_obstacle_eq_none hobstacle
      rw [htake]
      exact .inl (h.of_ended (Emission.failure?_eq_none_iff.mp hfailure))
    · exact .inr ⟨hempty, hobstacle⟩
  · have hdeclares := ((h r.memory).1 first hfirst).append rest
    rw [← htext] at hdeclares
    exact .inl hdeclares

namespace Generation

open Schedule

variable {env : Environment} {commandLine : Except FileTree.PathError String}
  {ignored : List String} {w : Json} {workers : Except Mismatch Json} {file : SourceFile}
  {run : Run}

/-- The blocks of a file, by the names of the types that they are there for. -/
def SourceFile.blocks (file : SourceFile) : List (String × String) :=
  file.hoisted ++ file.declared.map fun d ↦ (Identifier.ofMixedCase d.1, d.2)

/-- The body of a file consists of its blocks. -/
theorem SourceFile.body_eq_join_blocks (file : SourceFile) :
    file.body = String.join (file.blocks.map Prod.snd) := by
  rw [body, blocks, List.map_append, List.map_append, List.map_map]
  rfl

/-- A file comes about only if the ignored schemas and the workers are known. -/
theorem exists_of_generateFile_eq_ok
    (h : generateFile env commandLine workers = (.ok file, run)) :
    ∃ ignored w, env.options.ignoreSchemas = .ok ignored ∧ workers = .ok w := by
  rw [generateFile, compose] at h
  cases hignored : env.options.ignoreSchemas with
  | error e =>
    rw [hignored, Step.runFrom_bind_of_error (Step.runFrom_lift_error e _)] at h
    cases h
  | ok ignored =>
    rw [hignored, Step.runFrom_bind_of_ok (Step.runFrom_lift_ok ignored _)] at h
    obtain ⟨_, _, -, h⟩ := Step.of_runFrom_bind_eq_ok h
    obtain ⟨_, noted, -, h⟩ := Step.of_runFrom_bind_eq_ok h
    cases workers with
    | error e =>
      rw [runFrom_assemble_of_unknown_workers] at h
      cases h
    | ok w => exact ⟨ignored, w, rfl, rfl⟩

/-! ## What blocks declare -/

/-- What is kept of a schema declares the identifier of the schema. -/
theorem declares_of_mem_declared (hignored : env.options.ignoreSchemas = .ok ignored)
    (h : generateFile env commandLine (.ok w) = (.ok file, run)) {d : String × String}
    (hd : d ∈ file.declared) : Declares d.2 (Identifier.ofMixedCase d.1) := by
  rw [declared_generateFile hignored h] at hd
  obtain ⟨o, ho, rfl, hkept⟩ :=
    exists_of_mem_results (nodup_names_documentOutcomes env ignored w) hd
  rw [documentOutcomes, outcomes_eq_map] at ho
  obtain ⟨⟨e, r⟩, -, rfl⟩ := List.mem_map.mp ho
  -- A text cut off before its declaration is empty, and empty texts of failures are dropped.
  rcases r.declares_take (Schema.writesDeclaration_emitNamed env e.name e.schema) with
    hdeclares | ⟨hempty, hobstacle⟩
  · exact hdeclares
  · rcases hkept with hsuccess | hwritten
    · exact absurd (Option.map_eq_none_iff.mp hsuccess) hobstacle
    · exact absurd hempty hwritten

/-- Whatever happens while the schemas of a document are emitted registers declarations only. -/
theorem declaring_history (env : Environment) (ignored : List String) (w : Json) :
    Declaring (history env ignored w) := by
  rintro ⟨name, text⟩ hd
  obtain ⟨⟨e, r⟩, -, htold⟩ := List.mem_flatMap.mp (mem_registrations.mp hd)
  have hevent := (r.undergone_prefix (e.declaration env)).subset htold
  exact Schema.declaring_emitNamed env e.name e.schema r.memory _ (mem_registrations.mpr hevent)

/-- The registry behind a file is made of what was registered while schemas were emitted. -/
theorem items_generateFile_subset (hignored : env.options.ignoreSchemas = .ok ignored)
    (h : generateFile env commandLine (.ok w) = (.ok file, run)) :
    (Entries.names run.items).Nodup ∧
      ∀ d ∈ run.items, d ∈ registrations (history env ignored w) := by
  have hnodup : (Entries.names
      (emitted env (entries env ignored).1 (beginning env ignored w)).registry).Nodup :=
    Run.nodup_names_registry_applyAll (nodup_names_registry_beginning env ignored w) _
  rw [items_generateFile hignored h]
  refine ⟨(Text.names_sortByName_perm _).nodup_iff.mpr hnodup, ?_⟩
  rintro ⟨name, text⟩ hd
  rw [Run.items, Text.mem_sortByName, ← Entries.lookup_eq_some_iff_mem hnodup, emitted,
    Run.lookup_registry_applyAll, registry_beginning, List.lookup_nil, Option.none_or,
    registrations_append, registrations_failureEvents, List.append_nil] at hd
  rw [history]
  exact Entries.mem_of_lookup hd

/-! ## Distinct names -/

/-- The schemas with a text in a file differ in their identifiers. -/
theorem nodup_declaredTypes (hignored : env.options.ignoreSchemas = .ok ignored)
    (h : generateFile env commandLine (.ok w) = (.ok file, run)) :
    (declaredTypes file.declared).Nodup := by
  have hentry : ∀ d ∈ file.declared, ∃ e ∈ (entries env ignored).1, e.name = d.1 := by
    intro d hd
    rw [declared_generateFile hignored h] at hd
    have hname := (mem_names_results.mp (List.mem_map_of_mem hd)).1
    rw [documentOutcomes, names_outcomes] at hname
    exact List.mem_map.mp hname
  have hnames : (file.declared.map Prod.fst).Nodup := by
    rw [declared_generateFile hignored h]
    exact nodup_names_results
  refine List.Nodup.map_on ?_ (List.Nodup.of_map _ hnames)
  intro a ha b hb heq
  obtain ⟨e, he, hea⟩ := hentry a ha
  obtain ⟨f, hf, hfb⟩ := hentry b hb
  have hidentifier : e.identifier = f.identifier := by
    rw [Entry.identifier, Entry.identifier, hea, hfb]
    exact heq
  have hsame := List.inj_on_of_nodup_map (nodup_identifiers_entries env ignored) he hf hidentifier
  refine List.inj_on_of_nodup_map hnames ha hb ?_
  rw [← hea, ← hfb, hsame]

/-- **No type is declared twice.** The blocks of a file are there for different types, and each of
them begins with the declaration of its own type, whatever issues the run has. -/
theorem blocks_distinct (h : generateFile env commandLine workers = (.ok file, run)) :
    (Entries.names file.blocks).Nodup ∧
      ∀ block ∈ file.blocks, Declares block.2 block.1 := by
  obtain ⟨ignored, w, hignored, rfl⟩ := exists_of_generateFile_eq_ok h
  obtain ⟨hnodup, hregistered⟩ := items_generateFile_subset hignored h
  have hhoisted := hoisted_generateFile hignored h
  have htypes : Entries.names file.blocks =
      Entries.names file.hoisted ++ declaredTypes file.declared := by
    rw [Entries.names, SourceFile.blocks, List.map_append, List.map_map]
    rfl
  constructor
  · rw [htypes]
    refine List.Nodup.append ?_ (nodup_declaredTypes hignored h) ?_
    · rw [hhoisted]
      exact hnodup.sublist (List.filter_sublist.map _)
    -- Hoisted declarations that schemas are in the way of have been taken out.
    · intro type hfirst hsecond
      rw [hhoisted] at hfirst
      obtain ⟨d, hd, rfl⟩ := List.mem_map.mp hfirst
      have hfree : d.1 ∉ declaredTypes file.declared := by
        simpa using (List.mem_filter.mp hd).2
      exact hfree hsecond
  · intro block hblock
    rcases List.mem_append.mp hblock with hmem | hmem
    · rw [hhoisted] at hmem
      exact declaring_history env ignored w block (hregistered block (List.mem_filter.mp hmem).1)
    · obtain ⟨d, hd, rfl⟩ := List.mem_map.mp hmem
      dsimp only
      exact declares_of_mem_declared hignored h hd

/-- A document with a schema that fails half way, a union whose variants are declared beside it, and
a schema with the name of one of these. -/
def crossedDocument : Document where
  schemas := [
    ("Broken", .node { Schema.Keywords.blank 1 with types := ["object"] }
      [("guild", .reference (.int 5) 2)] none [] [] [] none),
    ("Owner", .node (.blank 3) [] none []
      [.leaf { Schema.Keywords.blank 4 with types := ["string"] },
        .leaf { Schema.Keywords.blank 5 with types := ["boolean"] }] [] none),
    ("OwnerString", .leaf { Schema.Keywords.blank 6 with types := ["string"] })]
  responses := []

/-- One variant gives way to the schema of its name, and a failed schema leaves its beginning. -/
theorem blocks_distinct_crossed :
    ∃ file run,
      generateFile (plainEnvironment crossedDocument) (.ok "") (.ok (.int 1)) = (.ok file, run) ∧
      run.issues.count = 2 ∧
      Entries.names file.blocks = ["OwnerBoolean", "Broken", "Owner", "OwnerString"] ∧
      (Entries.names file.blocks).Nodup ∧
      ∀ block ∈ file.blocks, Declares block.2 block.1 := by
  let run := (generateFile (plainEnvironment crossedDocument) (.ok "") (.ok (.int 1))).2
  let file : SourceFile :=
    { head := "// Code generated by openapi_to_code v1.0.0 : . DO NOT EDIT.\n\npackage main\n"
      hoisted := [("OwnerBoolean", "type OwnerBoolean bool\n\n")]
      declared := [
        ("Broken", "type Broken struct \x7b\n"),
        ("Owner", "// Owner is a union of the following types:\n//   - [OwnerString]\n" ++
          "//   - [OwnerBoolean]\ntype Owner interface \x7b\n\tisOwner()\n\x7d\n\n" ++
          "func (OwnerString) isOwner() \x7b\x7d\nfunc (OwnerBoolean) isOwner() \x7b\x7d\n\n"),
        ("OwnerString", "type OwnerString string\n\n")] }
  have hfile : (generateFile (plainEnvironment crossedDocument) (.ok "") (.ok (.int 1))).1 =
      .ok file := by
    decide +kernel
  have hgenerate : generateFile (plainEnvironment crossedDocument) (.ok "") (.ok (.int 1)) =
      (.ok file, run) :=
    Prod.ext hfile rfl
  refine ⟨file, run, hgenerate, by decide +kernel, by decide +kernel, ?_⟩
  exact blocks_distinct hgenerate

end Generation

end SchemaTypes
