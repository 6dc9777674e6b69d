import SchemaTypes.Proofs.Emission.Agreement
import SchemaTypes.Proofs.Generation.Choice
import SchemaTypes.Proofs.Run.Schedule
import SchemaTypes.Proofs.Schema.Catalogue

/-!
# The order of a catalogue does not show

Schemas are declared in the order of their names, and references find them by name. So the order in
which a document lists its schemas and responses shows nowhere: a document and its canonical form,
without numbers and in the order of names, are generated alike (`generate_canonical`), and with them
all documents that have this form (`generate_reordered`).
-/

namespace SchemaTypes

open Schema

/-! ## References in the canonical form -/

namespace Document

/-- Tables that answer alike up to positions lead to the same nodes up to positions. -/
theorem follow_renumber {f : Schema → Schema} (hf : Renumbers f)
    {table table' : List (SchemaTypes.Entry × Schema)}
    (h : ∀ entry, table'.lookup entry = (table.lookup entry).map f) (s : Schema) :
    follow table' (f s) = f <$> follow table s := by
  fun_induction follow table s generalizing table' with
  | case1 table s href =>
    rw [follow]
    simp only [hf.ref, href, Except.map_ok]
  | case2 table s ref href hentry =>
    rw [follow]
    simp only [hf.ref, href, hentry, Except.map_ok]
  | case3 table s ref href entry hentry hnext =>
    have hnext' : table'.lookup entry = none := by rw [h, hnext, Option.map_none]
    rw [follow]
    simp only [hf.ref, href, hentry, Except.map_ok]
    split
    · rfl
    · next found => rw [hnext'] at found; cases found
  | case4 table s ref href entry hentry next hnext ih =>
    have hnext' : table'.lookup entry = some (f next) := by rw [h, hnext, Option.map_some]
    -- What is followed next are the tables without the entry, which answer alike as well.
    have hrest : ∀ other, (without entry table').lookup other =
        ((without entry table).lookup other).map f := by
      intro other
      rw [lookup_without, lookup_without, h]
      split <;> rfl
    rw [follow]
    simp only [hf.ref, href, hentry]
    split
    · next found => rw [hnext'] at found; cases found
    · next found =>
      rw [hnext'] at found
      cases found
      exact ih hrest
  | case5 table s value href =>
    rw [follow]
    simp only [hf.ref, href, Except.map_error]
  | case6 table s value href =>
    rw [follow]
    simp only [hf.ref, href, Except.map_error]
  | case7 table s value htext hlist hobject href =>
    rw [follow]
    simp only [hf.ref, href]
    cases value with
    | text ref => exact absurd rfl (htext ref)
    | list items => exact absurd rfl (hlist items)
    | object members => exact absurd rfl (hobject members)
    | _ => rfl

theorem nodup_keys_entries {d : Document} (hschemas : (Entries.names d.schemas).Nodup)
    (hresponses : (Entries.names d.responses).Nodup) : (d.entries.map Prod.fst).Nodup := by
  have hkeys : d.entries.map Prod.fst = (Entries.names d.schemas).map SchemaTypes.Entry.schema ++
      (Entries.names d.responses).map SchemaTypes.Entry.response := by
    rw [entries, List.map_append, List.map_map, List.map_map, Entries.names, Entries.names,
      List.map_map, List.map_map]
    rfl
  rw [hkeys]
  refine List.Nodup.append (hschemas.map fun a b hab ↦ ?_) (hresponses.map fun a b hab ↦ ?_) ?_
  · exact SchemaTypes.Entry.schema.inj hab
  · exact SchemaTypes.Entry.response.inj hab
  · intro key hschema hresponse
    obtain ⟨name, -, rfl⟩ := List.mem_map.mp hschema
    obtain ⟨other, -, hother⟩ := List.mem_map.mp hresponse
    cases hother

/-- In its canonical form a document has the same entries without positions. -/
theorem lookup_entries_canonical {d : Document} (h : d.Arranged) (entry : SchemaTypes.Entry) :
    d.canonical.entries.lookup entry = (d.entries.lookup entry).map unnumbered := by
  have hperm : d.canonical.entries.Perm (d.entries.map fun (key, s) ↦ (key, s.unnumbered)) := by
    rw [entries, entries, List.map_append, canonical]
    refine List.Perm.append ?_ ?_
    · refine ((Text.sortByName_perm _).map _).trans ?_
      rw [withoutPositions, List.map_map, List.map_map]
      exact .refl _
    · refine ((Text.sortByName_perm _).map _).trans ?_
      rw [withoutPositions, List.map_map, List.map_map]
      exact .refl _
  have hkeys : (d.entries.map fun (key, s) ↦ (key, s.unnumbered)).map Prod.fst =
      d.entries.map Prod.fst := by
    rw [List.map_map]
    rfl
  have hnodup := nodup_keys_entries h.nodup_schemas h.nodup_responses
  rw [← hkeys, ← (hperm.map Prod.fst).nodup_iff] at hnodup
  rw [Entries.lookup_eq_of_perm hperm hnodup, Entries.lookup_map_snd]

theorem Arranged.ordered_of_mem_entries {d : Document} (h : d.Arranged) :
    ∀ e ∈ d.entries, e.2.Ordered := by
  intro e he
  rw [entries, List.mem_append, List.mem_map, List.mem_map] at he
  rcases he with ⟨p, hp, rfl⟩ | ⟨p, hp, rfl⟩
  · exact h.ordered_schemas p hp
  · exact h.ordered_responses p hp

end Document

namespace Generation

open Document Environment

/-! ## Environments of the canonical form -/

/-- The same environment for another document. -/
def withDocument (env : Environment) (document : Document) : Environment :=
  { env with document, renames := renames document env.options.trimResponseSuffix }

theorem environment_eq_withDocument (document other : Document) (options : Options)
    (tables : List DocTable) :
    environment other options tables =
      (withDocument · other) <$> environment document options tables := by
  rw [environment, environment]
  cases Correlator.ofTables tables <;> rfl

/-- Schemas are renamed the same in the canonical form. -/
theorem lookup_renames_canonical {d : Document} (h : d.Arranged) (trim : Bool) (name : String) :
    (renames d.canonical trim).lookup name = (renames d trim).lookup name := by
  cases trim with
  | false => rw [renames, renames, if_neg Bool.false_ne_true, if_neg Bool.false_ne_true]
  | true =>
    have hnames : (Entries.names d.canonical.schemas).Perm (Entries.names d.schemas) := by
      rw [← names_withoutPositions d.schemas]
      exact Text.names_sortByName_perm _
    have hperm : (renames d.canonical true).Perm (renames d true) := by
      rw [renames, renames, if_pos rfl, if_pos rfl]
      have hcontains : ∀ other, (Entries.names d.canonical.schemas).contains other =
          (Entries.names d.schemas).contains other := by
        intro other
        rw [Bool.eq_iff_iff, List.contains_iff_mem, List.contains_iff_mem, hnames.mem_iff]
      simp only [hcontains]
      exact hnames.filterMap _
    refine Entries.lookup_eq_of_perm hperm ?_ name
    rw [(hperm.map Prod.fst).nodup_iff, renames, if_pos rfl, List.map_filterMap]
    have hname : ∀ {other key : String},
        key ∈ Option.map Prod.fst (if (Text.removeEnding other responseSuffix).isEmpty ||
          Text.removeEnding other responseSuffix == other ||
          (Entries.names d.schemas).contains (Text.removeEnding other responseSuffix) then none
          else some (other, Text.removeEnding other responseSuffix)) → other = key := by
      intro other key hkey
      obtain ⟨p, hp, rfl⟩ := Option.map_eq_some_iff.mp hkey
      split at hp
      · cases hp
      · cases hp
        rfl
    exact h.nodup_schemas.filterMap fun a b key ha hb ↦ (hname ha).trans (hname hb).symm

/-- A document goes by the same names in its canonical form. -/
theorem emittedName_canonical {d : Document} (h : d.Arranged) (env : Environment) (name : String) :
    (withDocument env d.canonical).emittedName name = (withDocument env d).emittedName name := by
  rw [emittedName, emittedName]
  exact congrArg (Option.getD · name) (lookup_renames_canonical h _ name)

/-- The canonical form of a document answers as the document does. -/
theorem agree_canonical {d : Document} (h : d.Arranged) (env : Environment) :
    Agree unnumbered (withDocument env d) (withDocument env d.canonical) where
  typeName name := congrArg Identifier.ofMixedCase (emittedName_canonical h env name)
  deref s := follow_renumber renumbers_unnumbered (lookup_entries_canonical h) s
  resolve ref := by
    change d.canonical.resolve ref = Option.map unnumbered <$> d.resolve ref
    have htext : ∀ text, d.canonical.resolveText text =
        (d.resolveText text).map unnumbered := by
      intro text
      rw [resolveText, resolveText]
      cases Reference.entry? text with
      | none => rfl
      | some entry => exact lookup_entries_canonical h entry
    rw [resolve, resolve]
    cases ref.textOr "rpartition" with
    | error e => rfl
    | ok text => exact congrArg Except.ok (htext text)
  snowflakes := rfl
  optionImportPath := rfl
  enumNames := rfl

/-- Tables are found for a shape, and a shape has no positions. -/
theorem searchFields_renumber {f : Schema → Schema} (hf : Renumbers f)
    {resolve resolve' : Schema → Except Mismatch Schema}
    (hresolve : ∀ s, resolve' (f s) = f <$> resolve s) (c : Correlator)
    (memory : Correlator.Memory) (path : Path) (s : Schema) :
    c.searchFields resolve' memory path (f s) = c.searchFields resolve memory path s := by
  have hfield : ∀ name t, Correlator.fieldOf resolve' (f s).keywords name (f t) =
      Correlator.fieldOf resolve s.keywords name t := by
    intro name t
    rw [Correlator.fieldOf, Correlator.fieldOf, hresolve, hf.keywords]
    cases resolve t with
    | error e => rfl
    | ok u =>
      rw [Except.map_ok]
      simp only [bind, Except.bind, hf.types, Keywords.requires]
  have hdescribe :
      Correlator.describe resolve' path (f s) = Correlator.describe resolve path s := by
    rw [Correlator.describe, Correlator.describe, hf.properties, List.mapM_map]
    simp only [Function.comp_def, hfield]
  rw [Correlator.searchFields, Correlator.searchFields, Correlator.search, Correlator.search,
    hf.canonicalText, hdescribe]

/-- Where properties are in order, the declaration of a schema does not show the order of the
document. -/
theorem emitNamed_canonical {d : Document} (h : d.Arranged) (env : Environment) {s : Schema}
    (hs : s.Ordered) (name : String) :
    emitNamed (withDocument env d.canonical) name s.unnumbered =
      emitNamed (withDocument env d) name s := by
  refine emitNamed_renumber renumbers_unnumbered (agree_canonical h env) ?_ ?_ name
  · intro path t
    have hsearch := searchFields_renumber renumbers_unnumbered (agree_canonical h env).deref
      env.correlator
    rw [documentedFields, documentedFields]
    exact congrArg (fun search ↦ if env.options.docComments then
      Emit.search search >>= fun candidates ↦ Emit.lift (Correlator.bestFields candidates)
      else pure []) (funext fun memory ↦ hsearch memory path t)
  · intro u hu t ht
    exact keepsOrder_unnumbered (hu.of_forall_mem_entries h.ordered_of_mem_entries hs t ht)

/-! ## The choice of schemas -/

/-- An entry with another schema under its name. -/
def Entry.renumber (f : Schema → Schema) (e : Entry) : Entry := { e with schema := f e.schema }

theorem choose_renumber {env env' : Environment}
    (hname : ∀ name, env'.emittedName name = env.emittedName name) (f : Schema → Schema)
    (ignored : List String) (taken : List (String × String)) (xs : List (String × Schema)) :
    choose env' ignored taken (xs.map fun (name, s) ↦ (name, f s)) =
      ((choose env ignored taken xs).1.map (Entry.renumber f),
        (choose env ignored taken xs).2) := by
  have htype : ∀ name, env'.typeName name = env.typeName name := by
    intro name
    rw [typeName, typeName, hname]
  induction xs generalizing taken with
  | nil => rfl
  | cons d rest ih =>
    obtain ⟨name, s⟩ := d
    rw [List.map_cons]
    dsimp only
    by_cases hignored : ignored.contains name = true
    · rw [choose_cons_of_ignored hignored, choose_cons_of_ignored hignored, ih]
    cases hlookup : taken.lookup (env.typeName name) with
    | some first =>
      have hlookup' := hlookup
      rw [← htype] at hlookup'
      rw [choose_cons_of_taken hignored hlookup, choose_cons_of_taken hignored hlookup', ih, htype]
    | none =>
      have hlookup' := hlookup
      rw [← htype] at hlookup'
      rw [choose_cons_of_free hignored hlookup, choose_cons_of_free hignored hlookup', ih, htype,
        hname]
      rfl

/-- The same schemas are declared of the canonical form, and the same is said of the others. -/
theorem entries_canonical {d : Document} (h : d.Arranged) (env : Environment)
    (ignored : List String) :
    entries (withDocument env d.canonical) ignored =
      ((entries (withDocument env d) ignored).1.map (Entry.renumber unnumbered),
        (entries (withDocument env d) ignored).2) := by
  have hsorted : Text.sortByName d.canonical.schemas =
      (Text.sortByName d.schemas).map fun (name, s) ↦ (name, s.unnumbered) := by
    have hnodup : (Entries.names d.canonical.schemas).Nodup := by
      rw [canonical, (Text.names_sortByName_perm _).nodup_iff, names_withoutPositions]
      exact h.nodup_schemas
    rw [Text.sortByName_eq_self hnodup (Text.pairwise_sortByName _), canonical, Text.sortByName,
      withoutPositions, sorted_map]
    rfl
  rw [entries, entries]
  change (sorted _ (choose _ ignored [] (Text.sortByName d.canonical.schemas)).1,
    (choose _ ignored [] (Text.sortByName d.canonical.schemas)).2) = _
  rw [hsorted, choose_renumber (emittedName_canonical h env), sorted_map]
  rfl

/-! ## Generation -/

/-- A document and its canonical form are generated alike. -/
theorem generate_canonical {d : Document} (h : d.Arranged) (env : Environment)
    (commandLine : Except FileTree.PathError String) (workers : Except Mismatch Json) :
    generate (withDocument env d.canonical) commandLine workers =
      generate (withDocument env d) commandLine workers := by
  have hrun : ∀ ignored,
      Schedule.runAll (emitEntry (withDocument env d.canonical))
          (entries (withDocument env d.canonical) ignored).1 =
        Schedule.runAll (emitEntry (withDocument env d))
          (entries (withDocument env d) ignored).1 := by
    intro ignored
    have hentry : ∀ e ∈ (entries (withDocument env d) ignored).1,
        emitEntry (withDocument env d.canonical) (e.renumber unnumbered) =
          emitEntry (withDocument env d) e := by
      intro e he
      obtain ⟨p, hp, hschema⟩ := exists_of_mem_entries he
      have hordered : e.schema.Ordered := hschema ▸ h.ordered_schemas p hp
      funext run
      rw [emitEntry, emitEntry, Entry.declaration, Entry.declaration, Entry.renumber]
      simp only [emitNamed_canonical h env hordered]
    rw [entries_canonical h]
    exact funext (Schedule.runAll_map _ hentry)
  have hlength : ∀ ignored, (entries (withDocument env d.canonical) ignored).1.length =
      (entries (withDocument env d) ignored).1.length := by
    intro ignored
    rw [entries_canonical h, List.length_map]
  have hevents : ∀ ignored, (entries (withDocument env d.canonical) ignored).2 =
      (entries (withDocument env d) ignored).2 := by
    intro ignored
    rw [entries_canonical h]
  have hput : putTogether (withDocument env d.canonical) commandLine =
      putTogether (withDocument env d) commandLine := rfl
  have hcompose : compose (withDocument env d.canonical) commandLine workers =
      compose (withDocument env d) commandLine workers := by
    unfold compose
    refine congrArg _ (funext fun ignored ↦ ?_)
    simp only [assemble, emitAll, runTasks, startRecord, hput, hevents, hlength, hrun]
  rw [generate, generate, generateFile, generateFile, hcompose]
  rfl

/-- **The order of the catalogue does not matter.** If a document loads, then it does with the
entries of its catalogues in any other order, and whatever the options and the tables, the same file
comes of it and the same run: the same issues in the same order, the same records in the log. -/
theorem generate_reordered {value value' : Json} (h : Document.Reordered value value')
    {d : Document} (hload : Document.load value = .ok d) :
    ∃ d', Document.load value' = .ok d' ∧
      ∀ options tables commandLine workers,
        (generate · commandLine workers) <$> environment d' options tables =
          (generate · commandLine workers) <$> environment d options tables := by
  obtain ⟨harranged, d', hload', harranged', hcanonical⟩ := Document.load_reordered h hload
  refine ⟨d', hload', fun options tables commandLine workers ↦ ?_⟩
  -- Both documents are held against their canonical form, which is one and the same.
  have hcanonical_env : ∀ {document : Document}, document.Arranged →
      (generate · commandLine workers) <$> environment document options tables =
        (generate · commandLine workers) <$> environment document.canonical options tables := by
    intro document hdocument
    rw [environment_eq_withDocument document document.canonical]
    cases henv : environment document options tables with
    | error e => rfl
    | ok env =>
      have hself : withDocument env document = env := by
        have hsame := environment_eq_withDocument document document options tables
        rw [henv, Except.map_ok] at hsame
        exact (Except.ok.inj hsame).symm
      have hgenerate := generate_canonical hdocument env commandLine workers
      rw [hself] at hgenerate
      exact congrArg Except.ok hgenerate.symm
  rw [hcanonical_env harranged', hcanonical, ← hcanonical_env harranged]

/-- A document with the given catalogues, as it is written. -/
def catalogued (schemas responses : List (String × Json)) : Json :=
  .object [("components", .object [("schemas", .object schemas), ("responses", .object responses)])]

/-- An object one of whose properties refers to the schema beside it. -/
def guildEntry : String × Json :=
  ("Guild", .object [("type", .text "object"), ("properties", .object [
    ("owner", .object [("$ref", .text "#/components/schemas/OwnerResponse")]),
    ("name", .object [("type", .text "string")])])])

/-- An alias of a response, under a name that may be trimmed. -/
def ownerEntry : String × Json :=
  ("OwnerResponse", .object [("$ref", .text "#/components/responses/Found")])

/-- A response with a body, and one without. -/
def foundEntry : String × Json :=
  ("Found", .object [("content", .object [("application/json", .object [
    ("schema", .object [("type", .text "boolean")])])])])

theorem generate_reordered_swapped :
    ∃ d d', Document.load (catalogued [guildEntry, ownerEntry] [foundEntry, ("Gone", .object [])]) =
        .ok d ∧
      Document.load (catalogued [ownerEntry, guildEntry] [("Gone", .object []), foundEntry]) =
        .ok d' ∧
      d.schemas.map (fun p ↦ p.2.line) = [1, 4] ∧
      ∀ options tables commandLine workers,
        (generate · commandLine workers) <$> environment d' options tables =
          (generate · commandLine workers) <$> environment d options tables := by
  have hreordered : Document.Reordered
      (catalogued [guildEntry, ownerEntry] [foundEntry, ("Gone", .object [])])
      (catalogued [ownerEntry, guildEntry] [("Gone", .object []), foundEntry]) :=
    ⟨_, _, _, _, rfl, rfl, by decide, by decide, .swap _ _ _, .swap _ _ _⟩
  have hlines : (Document.load
      (catalogued [guildEntry, ownerEntry] [foundEntry, ("Gone", .object [])])).toOption.map
        (fun d ↦ d.schemas.map fun p ↦ p.2.line) = some [1, 4] := by
    decide +kernel
  cases hload : Document.load
      (catalogued [guildEntry, ownerEntry] [foundEntry, ("Gone", .object [])]) with
  | error e =>
    rw [hload] at hlines
    cases hlines
  | ok d =>
    rw [hload] at hlines
    obtain ⟨d', hload', hsame⟩ := generate_reordered hreordered hload
    exact ⟨d, d', rfl, hload', Option.some.inj hlines, hsame⟩

end Generation

end SchemaTypes
