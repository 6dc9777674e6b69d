import Mathlib.Data.List.Basic
import SchemaTypes.DocTable.Correlator
import SchemaTypes.Proofs.Schema.Textual

/-!
# Tables whose cells are texts

Nothing checks the cells of a table before they are used. Where they are texts, in all tables and in
what the search remembers of tables, a search finds something, if only that there is no table
(`Correlator.exists_searchFields_eq_ok`), and what it finds can be shown
(`Correlator.exists_bestFields_eq_ok`).
-/

namespace SchemaTypes

/-- A table all of whose cells are texts. -/
def DocTable.Textual (t : DocTable) : Prop :=
  ∀ row ∈ t.rows, row.field.IsText ∧ row.type.IsText ∧ row.description.IsText

theorem DocTable.Textual.exists_fieldInfos_eq_ok {t : DocTable} (h : t.Textual) :
    ∃ infos, t.fieldInfos = .ok infos ∧ ∀ info ∈ infos, info.comment.IsText := by
  refine exists_mapM_eq_ok fun row hrow ↦ ?_
  obtain ⟨⟨field, hfield⟩, ⟨type, htype⟩, hdescription⟩ := h row hrow
  have hinfo : row.fieldInfo = .ok {
      name := Text.removeEnding field "?"
      type := Text.removeBeginning type "?"
      comment := row.description
      optional := Text.endsWith field "?"
      nullable := Text.beginsWith type "?" } := by
    rw [Row.fieldInfo, hfield, htype]
    rfl
  exact ⟨_, hinfo, hdescription⟩

/-- A table that has texts for headings, too. -/
structure DocTable.WellTyped (t : DocTable) : Prop where
  sections : ∀ heading ∈ t.sections, heading.IsText
  rows : t.Textual

theorem DocTable.WellTyped.exists_fieldTable_eq_ok {t : DocTable} (h : t.WellTyped) :
    ∃ form, t.fieldTable = .ok form := by
  obtain ⟨headings, hheadings⟩ := Json.exists_joinable_eq_ok h.sections 0
  obtain ⟨infos, hinfos, -⟩ := h.rows.exists_fieldInfos_eq_ok
  exact ⟨_, by rw [fieldTable, hheadings, hinfos]; rfl⟩

namespace Correlator

/-- Candidates whose tables are textual. -/
def TextualCandidates (candidates : List Candidate) : Prop :=
  ∀ c ∈ candidates, c.table.Textual

/-- Only textual tables are remembered. -/
def Memory.Textual (memory : Memory) : Prop := ∀ found ∈ memory, TextualCandidates found.2

/-- All tables are textual. -/
def Textual (c : Correlator) : Prop := ∀ t ∈ c.tables, t.1.Textual

/-- Well-typed tables can be prepared for comparison. -/
theorem exists_ofTables_eq_ok {tables : List DocTable} (h : ∀ t ∈ tables, t.WellTyped) :
    ∃ c, ofTables tables = .ok c ∧ c.Textual := by
  have hform : ∀ t ∈ tables, ∃ form : DocTable × FieldTable,
      (do return (t, ← t.fieldTable) : Except Mismatch _) = .ok form ∧ form.1.Textual := by
    intro t ht
    obtain ⟨form, hform⟩ := (h t ht).exists_fieldTable_eq_ok
    exact ⟨(t, form), by rw [hform]; rfl, (h t ht).rows⟩
  obtain ⟨forms, hforms, htextual⟩ := exists_mapM_eq_ok hform
  exact ⟨⟨forms⟩, by rw [ofTables, hforms]; rfl, htextual⟩

/-- Candidates are chosen from the tables. -/
theorem Textual.best_scored {c : Correlator} (h : c.Textual) (ρ : Rat → Rat) (object : FieldTable) :
    TextualCandidates (best (c.scored ρ object)) := by
  intro candidate hcandidate
  have hsorted := (mem_sorted _).mp (List.mem_of_mem_take hcandidate)
  obtain ⟨t, ht, rfl⟩ := List.mem_map.mp (List.mem_filter.mp hsorted).1
  exact h t ht

variable {resolve : Schema → Except Mismatch Schema} {s : Schema}

theorem exists_describe_eq_ok (h : ∀ p ∈ s.properties, ∃ t, resolve p.2 = .ok t) (path : Path) :
    ∃ object, describe resolve path s = .ok object := by
  have hfield : ∀ p ∈ s.properties, ∃ field,
      fieldOf resolve s.keywords p.1 p.2 = .ok field ∧ True := by
    intro p hp
    obtain ⟨t, ht⟩ := h p hp
    exact ⟨_, by rw [fieldOf, ht]; rfl, trivial⟩
  obtain ⟨fields, hfields, -⟩ := exists_mapM_eq_ok hfield
  exact ⟨_, by rw [describe, hfields]; rfl⟩

/-- A search ends with a finding, in which all tables are textual. -/
theorem exists_searchFields_eq_ok {c : Correlator} (hc : c.Textual) {memory : Memory}
    (hmemory : memory.Textual) (h : ∀ p ∈ s.properties, ∃ t, resolve p.2 = .ok t) (path : Path) :
    ∃ found, c.searchFields resolve memory path s = .ok found ∧
      TextualCandidates found.candidates ∧ Memory.Textual found.learnt := by
  have hnil : Memory.Textual [] := List.forall_mem_nil _
  rw [searchFields]
  split
  · exact ⟨_, rfl, List.forall_mem_nil _, hnil⟩
  rw [search]
  split
  · next candidates hlookup =>
    exact ⟨_, rfl, hmemory _ (Entries.mem_of_lookup hlookup), hnil⟩
  · obtain ⟨object, hobject⟩ := exists_describe_eq_ok h path
    rw [hobject]
    have hbest := hc.best_scored Number.roundRat object
    exact ⟨_, rfl, hbest, List.forall_mem_singleton.mpr hbest⟩

/-- What textual candidates tell about fields are texts. -/
theorem exists_bestFields_eq_ok {candidates : List Candidate} (h : TextualCandidates candidates) :
    ∃ fields, bestFields candidates = .ok fields ∧
      ∀ name info, fields.lookup name = some info → info.comment.IsText := by
  cases candidates with
  | nil => exact ⟨[], rfl, fun name info hinfo ↦ by cases hinfo⟩
  | cons candidate rest =>
    obtain ⟨infos, hinfos, hcomments⟩ := (h candidate List.mem_cons_self).exists_fieldInfos_eq_ok
    refine ⟨Likelihood.fieldMap infos, by rw [bestFields, hinfos]; rfl, fun name info hinfo ↦ ?_⟩
    obtain ⟨found, hfound, heq⟩ := List.mem_map.mp (Entries.mem_of_lookup_ofList hinfo)
    obtain ⟨-, rfl⟩ := Prod.mk.inj heq
    exact hcomments _ hfound

end Correlator

end SchemaTypes
