import SchemaTypes.Generation
import SchemaTypes.Proofs.Run.Collection
import SchemaTypes.Proofs.Text.Order

/-!
# The choice of schemas

Of the schemas that are not ignored, all are chosen but those that are reported: a schema whose
identifier has been taken. So chosen schemas differ in their identifiers, and hence in the names
they go by (`nodup_names_entries`), and each one that is not chosen has an issue of its own
(`countP_declarable_le`).
-/

namespace SchemaTypes

namespace Generation

open Event

/-- The identifier of an entry. -/
def Entry.identifier (e : Entry) : String := Identifier.ofMixedCase e.name

/-- The schemas of a document that are not ignored. -/
def declarable (env : Environment) (ignored : List String) : List (String × Schema) :=
  env.document.schemas.filter fun d ↦ !ignored.contains d.1

variable {env : Environment} {ignored : List String}

/-! ## The names schemas go by -/

/-- What is left of the name of a schema without the common ending. No schema has that name. -/
structure Trimmed (document : Document) (name rest : String) : Prop where
  mem : name ∈ Entries.names document.schemas
  append : rest ++ responseSuffix = name
  ne_empty : rest ≠ ""
  free : rest ∉ Entries.names document.schemas

theorem Trimmed.unique {document : Document} {name rest rest' : String}
    (h : Trimmed document name rest) (h' : Trimmed document name rest') : rest = rest' :=
  (String.append_left_inj _).mp (h.append.trans h'.append.symm)

theorem mem_renames_iff {document : Document} {name rest : String} :
    (name, rest) ∈ renames document true ↔ Trimmed document name rest := by
  rw [renames, if_pos rfl]
  dsimp only
  rw [List.mem_filterMap]
  constructor
  · rintro ⟨other, hmem, hother⟩
    split at hother
    · cases hother
    · next hkept =>
      cases hother
      rw [Bool.or_eq_true, Bool.or_eq_true, not_or, not_or] at hkept
      obtain ⟨⟨hsome, hne⟩, hfree⟩ := hkept
      refine ⟨hmem, Text.removeEnding_append_of_ne fun heq ↦ hne (beq_iff_eq.mpr heq), ?_, ?_⟩
      · exact fun heq ↦ hsome (String.isEmpty_iff.mpr heq)
      · exact fun hin ↦ hfree (List.contains_iff_mem.mpr hin)
  · rintro ⟨hmem, rfl, hne, hfree⟩
    refine ⟨_, hmem, ?_⟩
    rw [Text.removeEnding_append, if_neg]
    rw [Bool.or_eq_true, Bool.or_eq_true, String.isEmpty_iff, beq_iff_eq, List.contains_iff_mem]
    rintro ((hempty | hsame) | hin)
    · exact hne hempty
    · exact hfree (hsame ▸ hmem)
    · exact hfree hin

/-- A schema is renamed to what stands before the common ending, and only if no schema has that
name. -/
theorem of_lookup_renames {document : Document} {trim : Bool} {name trimmed : String}
    (h : (renames document trim).lookup name = some trimmed) :
    trimmed ++ responseSuffix = name ∧ trimmed ∉ Entries.names document.schemas := by
  have hmem := Entries.mem_of_lookup h
  cases trim with
  | false => cases hmem
  | true =>
    have htrimmed := mem_renames_iff.mp hmem
    exact ⟨htrimmed.append, htrimmed.free⟩

/-- What is found under a name in the list of renamed schemas is what is left of that name. -/
theorem lookup_renames_iff {document : Document} {name rest : String} :
    (renames document true).lookup name = some rest ↔ Trimmed document name rest := by
  refine ⟨fun h ↦ mem_renames_iff.mp (Entries.mem_of_lookup h), fun h ↦ ?_⟩
  have hname : name ∈ Entries.names (renames document true) :=
    List.mem_map_of_mem (mem_renames_iff.mpr h)
  obtain ⟨other, hother⟩ := Option.isSome_iff_exists.mp
    ((Entries.isSome_lookup_iff name _).mpr hname)
  rw [hother, (mem_renames_iff.mp (Entries.mem_of_lookup hother)).unique h]

/-- **Different schemas of a document go by different names.** -/
theorem emittedName_injective {trim : Bool} (hrenames : env.renames = renames env.document trim)
    {a b : String} (ha : a ∈ Entries.names env.document.schemas)
    (hb : b ∈ Entries.names env.document.schemas) (h : env.emittedName a = env.emittedName b) :
    a = b := by
  rw [Environment.emittedName, Environment.emittedName, hrenames] at h
  cases hla : (renames env.document trim).lookup a with
  | none =>
    cases hlb : (renames env.document trim).lookup b with
    | none => rwa [hla, hlb] at h
    | some t =>
      rw [hla, hlb, Option.getD_none, Option.getD_some] at h
      rw [h] at ha
      exact absurd ha (of_lookup_renames hlb).2
  | some s =>
    cases hlb : (renames env.document trim).lookup b with
    | none =>
      rw [hla, hlb, Option.getD_none, Option.getD_some] at h
      rw [← h] at hb
      exact absurd hb (of_lookup_renames hla).2
    | some t =>
      rw [hla, hlb, Option.getD_some, Option.getD_some] at h
      rw [← (of_lookup_renames hla).1, ← (of_lookup_renames hlb).1, h]

/-! ## Choosing in turn -/

theorem choose_cons_of_ignored {name : String} (h : ignored.contains name = true) (s : Schema)
    (taken : List (String × String)) (rest : List (String × Schema)) :
    choose env ignored taken ((name, s) :: rest) =
      ((choose env ignored taken rest).1,
        .note ⟨.debug, .generation, "ignoring schema " ++ name⟩ ::
          (choose env ignored taken rest).2) := by
  rw [choose, if_pos h]

theorem choose_cons_of_taken {name first : String} (h : ¬ ignored.contains name = true)
    {taken : List (String × String)} (htaken : taken.lookup (env.typeName name) = some first)
    (s : Schema) (rest : List (String × Schema)) :
    choose env ignored taken ((name, s) :: rest) =
      ((choose env ignored taken rest).1,
        .report ⟨"", .sameIdentifier first name (env.typeName name)⟩ ::
          (choose env ignored taken rest).2) := by
  rw [Environment.typeName] at htaken
  rw [choose, if_neg h]
  dsimp only
  rw [htaken]
  rfl

theorem choose_cons_of_free {name : String} (h : ¬ ignored.contains name = true)
    {taken : List (String × String)} (hfree : taken.lookup (env.typeName name) = none)
    (s : Schema) (rest : List (String × Schema)) :
    choose env ignored taken ((name, s) :: rest) =
      (⟨env.emittedName name, s⟩ ::
          (choose env ignored ((env.typeName name, name) :: taken) rest).1,
        (choose env ignored ((env.typeName name, name) :: taken) rest).2) := by
  rw [Environment.typeName] at hfree
  rw [choose, if_neg h]
  dsimp only
  rw [hfree]
  rfl

/-- Chosen schemas have identifiers of their own, which were not taken before. -/
theorem nodup_identifiers_choose (taken : List (String × String)) (xs : List (String × Schema)) :
    ((choose env ignored taken xs).1.map Entry.identifier).Nodup ∧
      ∀ e ∈ (choose env ignored taken xs).1, taken.lookup e.identifier = none := by
  induction xs generalizing taken with
  | nil => exact ⟨List.nodup_nil, fun e he ↦ by cases he⟩
  | cons d rest ih =>
    obtain ⟨name, s⟩ := d
    by_cases h : ignored.contains name = true
    · rw [choose_cons_of_ignored h]
      exact ih taken
    cases hlookup : taken.lookup (env.typeName name) with
    | some first =>
      rw [choose_cons_of_taken h hlookup]
      exact ih taken
    | none =>
      rw [choose_cons_of_free h hlookup]
      obtain ⟨hnodup, hfree⟩ := ih ((env.typeName name, name) :: taken)
      have hother : ∀ e ∈ (choose env ignored ((env.typeName name, name) :: taken) rest).1,
          e.identifier ≠ env.typeName name ∧ taken.lookup e.identifier = none := by
        intro e he
        have hnone := hfree e he
        rw [Entries.lookup_cons_eq_ite] at hnone
        split at hnone
        · cases hnone
        · next hne => exact ⟨hne, hnone⟩
      constructor
      · rw [List.map_cons, List.nodup_cons]
        refine ⟨?_, hnodup⟩
        rw [List.mem_map]
        rintro ⟨e, he, heq⟩
        exact (hother e he).1 heq
      · intro e he
        rcases List.mem_cons.mp he with rfl | he
        · exact hlookup
        · exact (hother e he).2

/-- Each schema that is neither ignored nor chosen is reported. -/
theorem countP_le_reports_add (p : String → Bool) (taken : List (String × String))
    (xs : List (String × Schema)) :
    (xs.filter fun d ↦ !ignored.contains d.1).countP (fun d ↦ p (env.emittedName d.1)) ≤
      (reports (choose env ignored taken xs).2).length +
        (choose env ignored taken xs).1.countP fun e ↦ p e.name := by
  induction xs generalizing taken with
  | nil => exact Nat.zero_le _
  | cons d rest ih =>
    obtain ⟨name, s⟩ := d
    by_cases h : ignored.contains name = true
    · rw [List.filter_cons_of_neg (by simpa using h), choose_cons_of_ignored h]
      exact ih taken
    rw [List.filter_cons_of_pos (by simpa using h), List.countP_cons]
    cases hlookup : taken.lookup (env.typeName name) with
    | some first =>
      have hrest := ih taken
      rw [choose_cons_of_taken h hlookup, reports_cons, List.length_append, report?,
        Option.toList_some, List.length_singleton]
      dsimp only
      split <;> omega
    | none =>
      have hrest := ih ((env.typeName name, name) :: taken)
      rw [choose_cons_of_free h hlookup, List.countP_cons]
      dsimp only
      omega

/-- Without reports all schemas are chosen that are not ignored. -/
theorem choose_eq_of_reports_eq_nil {taken : List (String × String)} {xs : List (String × Schema)}
    (h : reports (choose env ignored taken xs).2 = []) :
    (choose env ignored taken xs).1 =
      (xs.filter fun d ↦ !ignored.contains d.1).map fun d ↦ ⟨env.emittedName d.1, d.2⟩ := by
  induction xs generalizing taken with
  | nil => rfl
  | cons d rest ih =>
    obtain ⟨name, s⟩ := d
    by_cases hignored : ignored.contains name = true
    · rw [choose_cons_of_ignored hignored] at h ⊢
      rw [List.filter_cons_of_neg (by simpa using hignored)]
      exact ih h
    rw [List.filter_cons_of_pos (by simpa using hignored)]
    cases hlookup : taken.lookup (env.typeName name) with
    | some first =>
      rw [choose_cons_of_taken hignored hlookup] at h
      cases h
    | none =>
      rw [choose_cons_of_free hignored hlookup] at h ⊢
      rw [List.map_cons, ih h]

/-- No schema is reported exactly if those that are not ignored have identifiers of their own. -/
theorem reports_choose_eq_nil_iff {taken : List (String × String)}
    {xs : List (String × Schema)} :
    reports (choose env ignored taken xs).2 = [] ↔
      ((xs.filter fun d ↦ !ignored.contains d.1).map fun d ↦ env.typeName d.1).Nodup ∧
        ∀ d ∈ xs.filter fun d ↦ !ignored.contains d.1,
          taken.lookup (env.typeName d.1) = none := by
  induction xs generalizing taken with
  | nil => simp [choose, reports]
  | cons d rest ih =>
    obtain ⟨name, s⟩ := d
    by_cases h : ignored.contains name = true
    · rw [choose_cons_of_ignored h, List.filter_cons_of_neg (by simpa using h), reports_cons]
      exact ih
    rw [List.filter_cons_of_pos (by simpa using h)]
    cases hlookup : taken.lookup (env.typeName name) with
    | some first =>
      rw [choose_cons_of_taken h hlookup, reports_cons, report?, Option.toList_some]
      constructor
      · intro hnil
        cases hnil
      · rintro ⟨-, hfree⟩
        have hnone := hfree _ List.mem_cons_self
        rw [hlookup] at hnone
        cases hnone
    | none =>
      rw [choose_cons_of_free h hlookup, ih, List.map_cons, List.nodup_cons]
      simp only [Entries.lookup_cons_eq_ite, List.forall_mem_cons, hlookup, true_and]
      constructor
      · rintro ⟨hnodup, hfree⟩
        refine ⟨⟨fun hmem ↦ ?_, hnodup⟩, fun d hd ↦ ?_⟩
        · obtain ⟨d, hd, heq⟩ := List.mem_map.mp hmem
          have hnone := hfree d hd
          rw [if_pos heq] at hnone
          cases hnone
        · have hnone := hfree d hd
          split at hnone
          · cases hnone
          · exact hnone
      · rintro ⟨⟨hname, hnodup⟩, hfree⟩
        refine ⟨hnodup, fun d hd ↦ ?_⟩
        rw [if_neg fun heq ↦ hname (List.mem_map.mpr ⟨d, hd, heq⟩)]
        exact hfree d hd

/-- The choice of schemas notes and reports, and nothing else. -/
theorem of_mem_events_choose {taken : List (String × String)} {xs : List (String × Schema)}
    {event : Event} (h : event ∈ (choose env ignored taken xs).2) :
    (∃ record, event = .note record) ∨
      ∃ first name identifier, event = .report ⟨"", .sameIdentifier first name identifier⟩ := by
  induction xs generalizing taken with
  | nil => cases h
  | cons d rest ih =>
    obtain ⟨name, s⟩ := d
    by_cases hignored : ignored.contains name = true
    · rw [choose_cons_of_ignored hignored] at h
      rcases List.mem_cons.mp h with rfl | h
      · exact .inl ⟨_, rfl⟩
      · exact ih h
    cases hlookup : taken.lookup (env.typeName name) with
    | some first =>
      rw [choose_cons_of_taken hignored hlookup] at h
      rcases List.mem_cons.mp h with rfl | h
      · exact .inr ⟨_, _, _, rfl⟩
      · exact ih h
    | none =>
      rw [choose_cons_of_free hignored hlookup] at h
      exact ih h

theorem registrations_choose (taken : List (String × String)) (xs : List (String × Schema)) :
    registrations (choose env ignored taken xs).2 = [] := by
  refine List.filterMap_eq_nil_iff.mpr fun event hevent ↦ ?_
  obtain ⟨_, rfl⟩ | ⟨_, _, _, rfl⟩ := of_mem_events_choose hevent <;> rfl

/-- What is chosen is a schema of the list that is chosen from. -/
theorem exists_of_mem_choose {taken : List (String × String)} {xs : List (String × Schema)}
    {e : Entry} (he : e ∈ (choose env ignored taken xs).1) : ∃ d ∈ xs, e.schema = d.2 := by
  induction xs generalizing taken with
  | nil => cases he
  | cons d rest ih =>
    obtain ⟨name, s⟩ := d
    by_cases hignored : ignored.contains name = true
    · rw [choose_cons_of_ignored hignored] at he
      obtain ⟨d, hd, heq⟩ := ih he
      exact ⟨d, List.mem_cons_of_mem _ hd, heq⟩
    cases hlookup : taken.lookup (env.typeName name) with
    | some first =>
      rw [choose_cons_of_taken hignored hlookup] at he
      obtain ⟨d, hd, heq⟩ := ih he
      exact ⟨d, List.mem_cons_of_mem _ hd, heq⟩
    | none =>
      rw [choose_cons_of_free hignored hlookup] at he
      rcases List.mem_cons.mp he with rfl | he
      · exact ⟨_, List.mem_cons_self, rfl⟩
      · obtain ⟨d, hd, heq⟩ := ih he
        exact ⟨d, List.mem_cons_of_mem _ hd, heq⟩

/-! ## The schemas of a document -/

theorem entries_perm (env : Environment) (ignored : List String) :
    (entries env ignored).1.Perm
      (choose env ignored [] (Text.sortByName env.document.schemas)).1 :=
  sorted_perm _ _

theorem exists_of_mem_entries {e : Entry} (he : e ∈ (entries env ignored).1) :
    ∃ d ∈ env.document.schemas, e.schema = d.2 := by
  obtain ⟨d, hd, heq⟩ := exists_of_mem_choose ((entries_perm env ignored).mem_iff.mp he)
  exact ⟨d, Text.mem_sortByName.mp hd, heq⟩

/-- What holds of all schemas in a document holds of those that are declared. -/
theorem forall_mem_entries {P : Schema → Prop} (h : ∀ e ∈ env.document.entries, P e.2) :
    ∀ e ∈ (entries env ignored).1, P e.schema := by
  intro e he
  obtain ⟨d, hd, hschema⟩ := exists_of_mem_entries he
  rw [hschema]
  exact h _ (List.mem_append_left _ (List.mem_map_of_mem hd))

theorem filter_sortByName_perm (env : Environment) (ignored : List String) :
    ((Text.sortByName env.document.schemas).filter fun d ↦ !ignored.contains d.1).Perm
      (declarable env ignored) :=
  (Text.sortByName_perm _).filter _

theorem registrations_entries (env : Environment) (ignored : List String) :
    registrations (entries env ignored).2 = [] :=
  registrations_choose [] _

/-- Declared schemas differ in their identifiers. -/
theorem nodup_identifiers_entries (env : Environment) (ignored : List String) :
    ((entries env ignored).1.map Entry.identifier).Nodup := by
  rw [((entries_perm env ignored).map Entry.identifier).nodup_iff]
  exact (nodup_identifiers_choose [] _).1

/-- Declared schemas differ in the names they go by. -/
theorem nodup_names_entries (env : Environment) (ignored : List String) :
    ((entries env ignored).1.map Entry.name).Nodup := by
  have hnodup := nodup_identifiers_entries env ignored
  have hmap : (entries env ignored).1.map Entry.identifier =
      ((entries env ignored).1.map Entry.name).map Identifier.ofMixedCase := by
    rw [List.map_map]
    rfl
  rw [hmap] at hnodup
  exact List.Nodup.of_map _ hnodup

/-- Each schema that is neither ignored nor declared is reported. -/
theorem countP_declarable_le (p : String → Bool) (env : Environment) (ignored : List String) :
    (declarable env ignored).countP (fun d ↦ p (env.emittedName d.1)) ≤
      (reports (entries env ignored).2).length +
        (entries env ignored).1.countP fun e ↦ p e.name := by
  rw [← (filter_sortByName_perm env ignored).countP_eq, (entries_perm env ignored).countP_eq]
  exact countP_le_reports_add p [] _

/-- No schema of a document is reported exactly if those that are not ignored have identifiers of
their own. -/
theorem reports_entries_eq_nil_iff :
    reports (entries env ignored).2 = [] ↔
      ((declarable env ignored).map fun d ↦ env.typeName d.1).Nodup := by
  have hperm := (filter_sortByName_perm env ignored).map fun d ↦ env.typeName d.1
  rw [entries, ← hperm.nodup_iff]
  dsimp only
  rw [reports_choose_eq_nil_iff]
  exact and_iff_left fun _ _ ↦ rfl

/-- Without reports all schemas are declared that are not ignored. -/
theorem entries_perm_of_reports_eq_nil (h : reports (entries env ignored).2 = []) :
    (entries env ignored).1.Perm
      ((declarable env ignored).map fun d ↦ ⟨env.emittedName d.1, d.2⟩) := by
  refine (entries_perm env ignored).trans ?_
  rw [choose_eq_of_reports_eq_nil h]
  exact (filter_sortByName_perm env ignored).map _

end Generation

end SchemaTypes
