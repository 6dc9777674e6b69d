import SchemaTypes.Proofs.DocTable.Textual
import SchemaTypes.Proofs.Run.Order
import SchemaTypes.Proofs.Run.Performance

/-!
# Runs that nothing is in the way of

Most events do no harm to a run (`Event.Harmless`). A run that only such events have led to
(`Run.Untroubled`) remembers nothing but textual tables, can list the packages that it needs, and
has no issue that tells of a failure.
-/

namespace SchemaTypes

open Correlator

/-- Events that are in the way of nothing: a package has a text for its path, no issue says that a
schema has failed, and only textual tables are learnt of. -/
inductive Event.Harmless : Event → Prop
  | note (record : Log.Record) : Harmless (.note record)
  | register (name text : String) : Harmless (.register name text)
  | mention (name : String) : Harmless (.mention name)
  | require {path : Json.Key} : path.IsText → Harmless (.require path)
  | report {issue : Issue} : issue.cause.kind ≠ .general → Harmless (.report issue)
  | learn (shape : String) {candidates : List Candidate} :
      TextualCandidates candidates → Harmless (.learn shape candidates)

namespace Run

open Event

/-- A run that harmless events have led to, from one before which nothing had happened. -/
def Untroubled (limit : Json) (r : Run) : Prop :=
  ∃ events, r = (start limit).applyAll events ∧ ∀ event ∈ events, event.Harmless

theorem untroubled_start (limit : Json) : (start limit).Untroubled limit :=
  ⟨[], rfl, List.forall_mem_nil _⟩

/-- What harmless events add are issues that tell of no failure. -/
theorem kind_ne_general_of_mem_recorded {r : Run} {events : List Event}
    (h : ∀ event ∈ events, event.Harmless) {issue : Issue} (hissue : issue ∈ r.recorded events) :
    issue.cause.kind ≠ .general := by
  induction events generalizing r with
  | nil => cases hissue
  | cons event rest ih =>
    obtain ⟨hevent, hrest⟩ := List.forall_mem_cons.mp h
    rcases List.mem_append.mp hissue with hmem | hmem
    · have hadded : r.issue? event = some issue := Option.mem_toList.mp hmem
      cases hevent with
      | report hkind =>
        cases hadded
        exact hkind
      | register name text =>
        rw [issue?] at hadded
        split at hadded
        · cases hadded
        · cases hadded
          rintro ⟨⟩
      | _ => cases hadded
    · exact ih hrest hmem

namespace Untroubled

variable {limit : Json} {r : Run} (h : r.Untroubled limit)

include h

theorem applyAll {events : List Event} (hevents : ∀ event ∈ events, event.Harmless) :
    (r.applyAll events).Untroubled limit := by
  obtain ⟨before, rfl, hbefore⟩ := h
  refine ⟨before ++ events, (applyAll_append _ _ _).symm, ?_⟩
  exact List.forall_mem_append.mpr ⟨hbefore, hevents⟩

theorem limit_eq : r.issues.limit = limit := by
  obtain ⟨events, rfl, -⟩ := h
  rw [limit_applyAll]
  rfl

theorem textual_memory : r.memory.Textual := by
  obtain ⟨events, rfl, hharmless⟩ := h
  intro found hfound
  rcases mem_memory_applyAll.mp hfound with hmem | hmem
  · cases hmem
  · cases hharmless _ hmem with
    | learn _ htextual => exact htextual

/-- The packages that are needed can be listed. -/
theorem exists_imports_eq_ok : ∃ keys, r.imports = .ok keys := by
  obtain ⟨events, rfl, hharmless⟩ := h
  generalize hrun : (start limit).applyAll events = run
  have htext : ∀ key ∈ run.required, ∃ s, key = .text s := by
    intro key hkey
    rw [← hrun, mem_required_applyAll] at hkey
    rcases hkey with hmem | hmem
    · cases hmem
    · obtain ⟨event, hevent, hpath⟩ := List.mem_filterMap.mp hmem
      cases hharmless event hevent with
      | require htext =>
        cases hpath
        exact htext
      | _ => cases hpath
  simp only [imports_eq_ok_iff]
  split
  · exact ⟨_, rfl⟩
  · exact ⟨_, _, (Json.map_text_filterMap_text? htext).symm, rfl⟩

/-- All issues, also those that are not kept, tell of no failure. -/
theorem exists_issues_eq :
    ∃ issues : List Issue, r.issues = issues.foldl Issues.add (.empty limit) ∧
      ∀ issue ∈ issues, issue.cause.kind ≠ .general := by
  obtain ⟨events, rfl, hharmless⟩ := h
  refine ⟨(start limit).recorded events, issues_applyAll _ _, fun issue hissue ↦ ?_⟩
  exact kind_ne_general_of_mem_recorded hharmless hissue

end Untroubled

end Run

end SchemaTypes
