import SchemaTypes.Generation
import SchemaTypes.Proofs.Identifier.Letters

/-!
# Guessed snowflakes

Whatever the lists of kinds say, kinds are identifiers: the names in a list are made into
identifiers when it is read. So the type of a snowflake consists of letters of words
(`Table.Lettered.guess`).
-/

namespace SchemaTypes

open Identifier

namespace Snowflake

/-- All kinds of a table are identifiers. -/
structure Table.Lettered (t : Table) : Prop where
  kinds : ∀ kind ∈ t.kinds, Identifier.Lettered kind.name
  fields : ∀ path kind, t.fields.lookup path = some kind → Identifier.Lettered kind

theorem lettered_readKinds (text : String) : ∀ kind ∈ readKinds text, Lettered kind.name := by
  intro kind hkind
  obtain ⟨line, -, hline⟩ := List.mem_filterMap.mp hkind
  rw [kindOfLine] at hline
  split at hline
  · cases hline
  split at hline
  · cases hline
  · cases hline
    exact lettered_ofMixedCase _

theorem lettered_readFields {text path kind : String}
    (h : (readFields text).lookup path = some kind) : Lettered kind := by
  obtain ⟨line, hline, hentry⟩ := List.mem_filterMap.mp (Entries.mem_of_lookup_ofList h)
  obtain ⟨cs, -, rfl⟩ := List.mem_map.mp hline
  cases hread : readFieldLine cs with
  | silent =>
    rw [hread] at hentry
    cases hentry
  | invalid other =>
    rw [hread] at hentry
    cases hentry
  | entry path' kind' =>
    rw [hread] at hentry
    cases hentry
    unfold readFieldLine at hread
    split at hread
    · cases hread
    split at hread
    · cases hread
    · cases hread
      exact lettered_ofMixedCase _
    · cases hread

theorem Table.Lettered.override {t : Table} (h : t.Lettered) (kinds : List String)
    (fields : List (String × String)) : (t.override kinds fields).Lettered where
  kinds kind hkind := by
    rcases List.mem_append.mp hkind with hkind | hkind
    · exact lettered_readKinds _ kind hkind
    · exact h.kinds kind hkind
  fields path kind hkind := by
    rcases Entries.of_lookup_setAll hkind with hold | hmem
    · exact h.fields path kind hold
    · obtain ⟨field, -, hfield⟩ := List.mem_map.mp hmem
      cases hfield
      exact lettered_ofMixedCase _

/-- Tables that are kept as text hold identifiers. -/
theorem lettered_read (kinds fields : String) :
    Table.Lettered ⟨readKinds kinds, readFields fields⟩ :=
  ⟨lettered_readKinds kinds, fun _ _ ↦ lettered_readFields⟩

theorem lettered_curated : curated.Lettered := lettered_read _ _

theorem Table.Lettered.guess {t : Table} (h : t.Lettered) (path : Path) :
    Identifier.Lettered (t.guess path) := by
  have hkindOf : ∀ kind, t.kindOf path = some kind → Identifier.Lettered kind := by
    intro kind hkind
    unfold kindOf at hkind
    split at hkind
    · next found hfound =>
      cases hkind
      exact h.fields _ _ hfound
    · obtain ⟨found, hfound, rfl⟩ := Option.map_eq_some_iff.mp hkind
      exact h.kinds found (List.mem_of_find?_eq_some hfound)
  unfold Table.guess
  split
  · next kind hkind =>
    refine (hkindOf kind hkind).append ?_
    simp [Identifier.Lettered, isWordLetter]
  · simp [Identifier.Lettered, isWordLetter, genericType]

end Snowflake

/-- The kinds that an environment is made with are identifiers. -/
theorem Generation.lettered_snowflakes {document : Document} {options : Options}
    {tables : List DocTable} {env : Environment}
    (henv : environment document options tables = .ok env) : env.snowflakes.Lettered := by
  unfold environment at henv
  cases hcorrelator : Correlator.ofTables tables with
  | error e =>
    rw [hcorrelator] at henv
    cases henv
  | ok correlator =>
    rw [hcorrelator] at henv
    cases henv
    exact Snowflake.lettered_curated.override _ _

end SchemaTypes
