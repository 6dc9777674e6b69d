import SchemaTypes.Proofs.Generation.Choice
import SchemaTypes.Proofs.Identifier.Likeness

/-!
# Names without the common ending

A schema that is named for a response goes by what stands in front of that word, if no schema has
that name. The word is spelled alone at the end of an identifier
(`ofMixedCase_append_responseSuffix`), so that two schemas which both lose it still differ in their
identifiers if they did before. But names are compared and not identifiers: a schema of another name
may have the identifier that is left.

So of schemas that differ in their identifiers two come to one identifier exactly if one of them
keeps its name and has the identifier of what is left of the other name (`Untaken`,
`trimming_iff_untaken`). That does not happen where all schemas are named by identifiers.
-/

namespace SchemaTypes.Generation

open Event Identifier

variable {env : Environment} {name rest : String}

/-! ## The identifiers of trimmed names -/

/-- The common ending is a word of its own behind any name. -/
theorem ofMixedCase_append_responseSuffix (name : String) :
    ofMixedCase (name ++ responseSuffix) = ofMixedCase name ++ responseSuffix := by
  have hword : words (stripMarks responseSuffix.toList) = [responseSuffix.toList] := by decide
  have hapart : StandsApart (stripMarks responseSuffix.toList) := by
    intro c d hd w hw
    rw [hword] at hw
    obtain rfl : responseSuffix.toList = w := Option.some.inj hw
    obtain rfl : 'R' = d := Option.some.inj hd
    simp [joins, responseSuffix]
  have hsuffix : ofMixedCase responseSuffix = responseSuffix := by decide
  rw [ofMixedCase_append hapart, hsuffix]

/-- A schema has the identifier of what is left of its name, or of its name if that is kept. -/
theorem trimmed_or_kept (hrenames : env.renames = renames env.document true) (name : String) :
    (∃ rest, Trimmed env.document name rest ∧ env.typeName name = ofMixedCase rest) ∨
      (∀ rest, ¬ Trimmed env.document name rest) ∧ env.typeName name = ofMixedCase name := by
  rw [Environment.typeName, Environment.emittedName, hrenames]
  rcases hlookup : (renames env.document true).lookup name with _ | rest
  · refine .inr ⟨fun rest hrest ↦ ?_, rfl⟩
    rw [lookup_renames_iff.mpr hrest] at hlookup
    cases hlookup
  · exact .inl ⟨rest, lookup_renames_iff.mp hlookup, rfl⟩

/-! ## Schemas that come to one identifier -/

/-- What is left of a name has the identifier of no schema that keeps its name. -/
def Untaken (document : Document) : Prop :=
  ∀ name rest other, Trimmed document name rest → other ∈ Entries.names document.schemas →
    (∀ left, ¬ Trimmed document other left) → ofMixedCase rest ≠ ofMixedCase other

/-- What is left of an identifier is one, so that it is compared as a name. -/
theorem untaken_of_identifiers {document : Document}
    (h : ∀ name ∈ Entries.names document.schemas, ofMixedCase name = name) : Untaken document := by
  intro name rest other htrimmed hother _ hsame
  have hrest : ofMixedCase rest ++ responseSuffix = rest ++ responseSuffix := by
    rw [← ofMixedCase_append_responseSuffix, htrimmed.append, h name htrimmed.mem]
  rw [(String.append_left_inj _).mp hrest, h other hother] at hsame
  exact htrimmed.free (hsame ▸ hother)

/-- Schemas that differ in their identifiers still do when names are trimmed, exactly if nothing
that is left of a name is taken. -/
theorem nodup_typeNames_iff_untaken (hrenames : env.renames = renames env.document true)
    (hdistinct : ((Entries.names env.document.schemas).map ofMixedCase).Nodup) :
    ((Entries.names env.document.schemas).map env.typeName).Nodup ↔ Untaken env.document := by
  constructor
  · intro hnodup name rest other htrimmed hother hkept hsame
    have heq : name = other := by
      refine List.inj_on_of_nodup_map hnodup htrimmed.mem hother ?_
      obtain ⟨left, hleft, hname⟩ | ⟨hname, -⟩ := trimmed_or_kept hrenames name
      · obtain ⟨left', hleft', -⟩ | ⟨-, hother'⟩ := trimmed_or_kept hrenames other
        · exact absurd hleft' (hkept left')
        · rw [hname, hother', hleft.unique htrimmed, hsame]
      · exact absurd htrimmed (hname rest)
    exact hkept rest (heq ▸ htrimmed)
  · intro huntaken
    refine List.Nodup.map_on (fun a ha b hb hsame ↦ ?_) (.of_map _ hdistinct)
    refine List.inj_on_of_nodup_map hdistinct ha hb ?_
    obtain ⟨rest, hta, hra⟩ | ⟨hta, hra⟩ := trimmed_or_kept hrenames a <;>
    obtain ⟨left, htb, hrb⟩ | ⟨htb, hrb⟩ := trimmed_or_kept hrenames b <;>
    rw [hra, hrb] at hsame
    · -- Both names lose the same ending, so that they had one identifier with it, too.
      rw [← hta.append, ← htb.append, ofMixedCase_append_responseSuffix,
        ofMixedCase_append_responseSuffix, hsame]
    · exact absurd hsame (huntaken a rest b hta hb htb)
    · exact absurd hsame.symm (huntaken b left a htb ha hta)
    · exact hsame

/-- All schemas are declared exactly if they come to identifiers of their own. -/
theorem entries_perm_iff_nodup_typeNames :
    (entries env []).1.Perm (env.document.schemas.map fun d ↦ ⟨env.emittedName d.1, d.2⟩) ↔
      ((Entries.names env.document.schemas).map env.typeName).Nodup := by
  have hall : declarable env [] = env.document.schemas := List.filter_eq_self.mpr fun _ _ ↦ rfl
  have hnames : (env.document.schemas.map fun d ↦ (⟨env.emittedName d.1, d.2⟩ : Entry)).map
      Entry.identifier = (Entries.names env.document.schemas).map env.typeName := by
    rw [Entries.names, List.map_map, List.map_map]
    rfl
  constructor
  · intro hperm
    rw [← hnames, ← (hperm.map Entry.identifier).nodup_iff]
    exact nodup_identifiers_entries env []
  · intro hnodup
    rw [Entries.names, List.map_map, ← hall] at hnodup
    rw [← hall]
    exact entries_perm_of_reports_eq_nil (reports_entries_eq_nil_iff.mpr hnodup)

/-- **When trimmed names keep schemas apart.** Let schemas differ in their identifiers, and let none
be ignored. They still differ when their names are trimmed exactly if what is left of a name never
has the identifier of a schema that keeps its name. That is also exactly when all of them are
declared, and when none is reported. Where all names are identifiers it is so. -/
theorem trimming_iff_untaken (hrenames : env.renames = renames env.document true)
    (hdistinct : ((Entries.names env.document.schemas).map ofMixedCase).Nodup) :
    (((Entries.names env.document.schemas).map env.typeName).Nodup ↔ Untaken env.document) ∧
      ((entries env []).1.Perm
          (env.document.schemas.map fun d ↦ ⟨env.emittedName d.1, d.2⟩) ↔ Untaken env.document) ∧
      (reports (entries env []).2 = [] ↔ Untaken env.document) ∧
      ((∀ name ∈ Entries.names env.document.schemas, ofMixedCase name = name) →
        Untaken env.document) := by
  have hnodup := nodup_typeNames_iff_untaken hrenames hdistinct
  refine ⟨hnodup, entries_perm_iff_nodup_typeNames.trans hnodup, ?_, untaken_of_identifiers⟩
  have hall : declarable env [] = env.document.schemas := List.filter_eq_self.mpr fun _ _ ↦ rfl
  rw [← hnodup, reports_entries_eq_nil_iff, hall, Entries.names, List.map_map]
  rfl

/-- A member, and responses of which one is named like the member and one like nothing else. -/
def responseDocument : Document where
  schemas := [("Member", .leaf (.blank 1)), ("MemberResponse", .leaf (.blank 2)),
    ("GuildResponse", .leaf (.blank 3))]
  responses := []

/-- The response that is named like a member keeps its name, the other one goes by a shorter one. -/
theorem trimming_iff_untaken_responses :
    (plainEnvironment responseDocument).renames = [("GuildResponse", "Guild")] ∧
      ((Entries.names responseDocument.schemas).map ofMixedCase).Nodup ∧
      ((entries (plainEnvironment responseDocument) []).1.map Entry.name).Perm
        ["Member", "MemberResponse", "Guild"] ∧
      reports (entries (plainEnvironment responseDocument) []).2 = [] := by
  have hdistinct : ((Entries.names responseDocument.schemas).map ofMixedCase).Nodup := by decide
  have hrenames : (plainEnvironment responseDocument).renames = renames responseDocument true := rfl
  obtain ⟨-, hperm, hreports, hidentifiers⟩ := trimming_iff_untaken hrenames hdistinct
  have huntaken : Untaken responseDocument := hidentifiers (by decide)
  exact ⟨by decide, hdistinct, (hperm.mpr huntaken).map Entry.name, hreports.mpr huntaken⟩

/-- Schemas may come to one identifier when names are trimmed, although they differ in their
identifiers and no schema has the name that is left. -/
theorem not_apart_of_small_letter :
    ¬ ∀ env : Environment, env.renames = renames env.document true →
      ((Entries.names env.document.schemas).map ofMixedCase).Nodup →
        ((Entries.names env.document.schemas).map env.typeName).Nodup ∧
          reports (entries env []).2 = [] := by
  intro h
  have hnodup := (h (plainEnvironment
    ⟨[("Guild", .leaf (.blank 1)), ("guildResponse", .leaf (.blank 2))], []⟩) rfl (by decide)).1
  revert hnodup
  decide

end SchemaTypes.Generation
