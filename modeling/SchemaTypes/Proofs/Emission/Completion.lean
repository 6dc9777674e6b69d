import SchemaTypes.Proofs.Emission.Commenting
import SchemaTypes.Proofs.Run.Untroubled

/-!
# Emissions that end by themselves

In a sound environment, with textual tables and textual schemas, an emission ends by itself and
tells nothing that could be in the way of the run (`Schema.completes_emitNamed`).

Without documentation comments this is a closed property of emissions: whatever a rule asks for is
there. With them tables are searched, and what a search finds is not known to the rules; but an
emission with comments ends as the one without them does, and tells the same but for remarks.
-/

namespace SchemaTypes

open Correlator Event

/-- What is told is as harmless as what is told without remarks. -/
theorem Event.Commented.harmless {xs ys : List Event} (h : Commented xs ys)
    (hys : ∀ event ∈ ys, event.Harmless) : ∀ event ∈ xs, event.Harmless := by
  intro event hevent
  cases event with
  | note record => exact .note record
  | register name text => exact .register name text
  | mention name => exact .mention name
  | learn shape candidates => exact .learn shape (h.learnt shape candidates hevent)
  | require path =>
    have hmem : path ∈ Event.requirements xs := List.mem_filterMap.mpr ⟨_, hevent, rfl⟩
    rw [h.requirements] at hmem
    obtain ⟨other, hother, hpath⟩ := List.mem_filterMap.mp hmem
    cases hys other hother with
    | require htext =>
      cases hpath
      exact .require htext
    | _ => cases hpath
  | report issue =>
    have hmem : issue ∈ Event.reports xs := List.mem_filterMap.mpr ⟨_, hevent, rfl⟩
    rw [h.reports] at hmem
    obtain ⟨other, hother, hissue⟩ := List.mem_filterMap.mp hmem
    cases hys other hother with
    | report hkind =>
      cases hissue
      exact .report hkind
    | _ => cases hissue

namespace Emit

variable {α : Type}

/-- An emission ends by itself, whatever is remembered of tables. -/
def Ends (x : Emit α) : Prop := ∀ memory, ∃ a, (x memory).result = .ok a

theorem ends_closed : Closed (fun _ ↦ True) (fun _ ↦ True) False False Ends where
  done a _ := ⟨a, rfl⟩
  fail _ hfail := hfail.elim
  write _ _ := ⟨(), rfl⟩
  tell _ _ _ := ⟨(), rfl⟩
  mention _ _ _ := ⟨(), rfl⟩
  register _ _ _ _ _ := ⟨(), rfl⟩
  hoist _ _ _ _ _ := ⟨(), rfl⟩
  search _ hsearch := hsearch.elim
  capture {x} hx memory := by
    obtain ⟨u, hu⟩ := hx memory
    exact ⟨(x memory).text, by rw [capture, hu]; rfl⟩
  bindResult {_ _ x f} hx hf memory := by
    obtain ⟨a, ha⟩ := hx memory
    cases hrun : x memory with
    | mk acts later result =>
      rw [hrun] at ha
      obtain rfl : result = .ok a := ha
      rw [bind_apply_of_ok hrun]
      exact hf a memory (by rw [hrun]) later

/-- Without documentation comments nothing is told but what is harmless. -/
theorem harmless_closed :
    Closed (fun _ ↦ True) (fun _ ↦ True) False False
      (Tells fun events ↦ ∀ event ∈ events, event.Harmless) := by
  refine tells_closed (List.forall_mem_nil _) ?_ ?_ ?_ ?_ ?_ ?_
  · exact fun xs ys hxs hys ↦ List.forall_mem_append.mpr ⟨hxs, hys⟩
  · intro event hplain
    refine List.forall_mem_singleton.mpr ?_
    cases hplain with
    | note record => exact .note record
    | require path hpath => exact .require (hpath.resolve_left id)
    | report issue hkind => exact .report hkind
  · exact fun hsearch ↦ hsearch.elim
  · exact fun name _ ↦ List.forall_mem_singleton.mpr (.mention name)
  · exact fun name text _ _ ↦ List.forall_mem_singleton.mpr (.register name text)
  · intro name text _ _
    refine List.forall_mem_cons.mpr ⟨.register name text, ?_⟩
    exact List.forall_mem_singleton.mpr (.mention name)

end Emit

variable {env : Environment}

theorem Environment.Sound.uncommented (h : env.Sound) : env.uncommented.Sound :=
  ⟨h.document, h.optionPath, h.enumNames⟩

/-- **The declaration of a textual schema is emitted to its end**, whatever is remembered of textual
tables, and nothing is told but what is harmless. -/
theorem Schema.completes_emitNamed (henv : env.Sound) (htables : env.correlator.Textual)
    {s : Schema} (hs : s.Textual) (name : String) {memory : Memory} (hmemory : memory.Textual) :
    (emitNamed env name s memory).failure? = none ∧
      ∀ event ∈ (emitNamed env name s memory).events, event.Harmless := by
  have hdocs : env.uncommented.options.docComments = true → False ∧ False := fun h ↦ by cases h
  obtain ⟨hends, htells⟩ := emitNamed_closed (Emit.ends_closed.and Emit.harmless_closed) hdocs
    (.inr ⟨henv.uncommented, hs⟩) (.everywhere _) (fun _ _ _ _ _ _ _ ↦ trivial)
    (fun _ _ _ _ _ ↦ ⟨trivial, trivial⟩) (fun _ _ _ ↦ trivial)
  -- With comments the emission is held against the one without them, which no search is in.
  have hcoupled := comments_emitNamed henv.document htables hs name memory [] hmemory
  obtain ⟨u, hu⟩ := hends []
  have htold := htells []
  generalize emitNamed env name s memory = e at hcoupled ⊢
  generalize emitNamed env.uncommented name s [] = plain at hcoupled hu htold
  rcases hcoupled with ⟨-, hevents, -, -⟩ | ⟨m, hevents⟩
  · exact ⟨rfl, hevents.harmless htold⟩
  · cases hu

end SchemaTypes
