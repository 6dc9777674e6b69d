import SchemaTypes.Proofs.Identifier.PathNames
import SchemaTypes.Snowflake.Table

/-!
# Synthetic steps and names

Synthetic steps may be at the end of a path, between other steps and right below its root. None of
them shows in a name: what a path is named, and what the snowflake at its end is taken for, depends
on the root and the other steps alone (`exportedName_congr`, `guess_congr`). Only the curated list
of paths can tell two paths apart that differ in synthetic steps, since it goes by all steps but
those at the end.
-/

namespace SchemaTypes.Path

open Identifier

/-- `q` is `p` with any number of synthetic steps put in somewhere below the root. -/
inductive Padded : Path → Path → Prop where
  | root (name : String) : Padded (ofRoot name) (ofRoot name)
  | step {p q : Path} (h : Padded p q) (name : String) : Padded (p.push name) (q.push name)
  | synthetic {p q : Path} (h : Padded p q) {name : String} (hname : isPrivate name = true) :
      Padded p (q.push name)

variable {p q : Path}

/-- Put in or not, synthetic steps leave the same path when they are all dropped. -/
theorem Padded.visible_eq (h : Padded p q) : q.visible = p.visible := by
  induction h with
  | root => rfl
  | step _ name ih =>
    cases hname : isPrivate name with
    | true => rw [visible_push_of_isPrivate hname, visible_push_of_isPrivate hname, ih]
    | false => rw [visible_push_of_not_isPrivate hname, visible_push_of_not_isPrivate hname, ih]
  | synthetic _ hname ih => rw [visible_push_of_isPrivate hname, ih]

end SchemaTypes.Path

namespace SchemaTypes.Snowflake

open Identifier

variable {p q : Path}

theorem fieldName_congr (h : q.visible = p.visible) : fieldName q = fieldName p := by
  rw [fieldName, fieldName, Path.current_popPrivate, Path.current_popPrivate, h]

/-- What holds the field at the end of a path goes by the innermost name but one. -/
theorem parentName_eq (p : Path) : parentName p =
    match p.visible.parent? with
    | some parent => ofMixedCase parent.current
    | none => "" := by
  induction p using Path.push_induction with
  | root name => rfl
  | push p name ih =>
    cases hname : isPrivate name with
    | true =>
      rw [Path.visible_push_of_isPrivate hname, ← ih, parentName, parentName,
        Path.popPrivate_push_of_isPrivate hname]
    | false =>
      rw [Path.visible_push_of_not_isPrivate hname, Path.parent?_push, parentName,
        Path.popPrivate_push_of_not_isPrivate hname, Path.parent?_push]
      exact congrArg ofMixedCase (Path.current_popPrivate p)

theorem parentName_congr (h : q.visible = p.visible) : parentName q = parentName p := by
  rw [parentName_eq, parentName_eq, h]

/-- The guess at a path depends on the root, the steps that are not synthetic and what the list of
paths says. -/
theorem guess_congr {t : Table} (h : q.visible = p.visible)
    (hfields : t.fields.lookup q.popPrivate.text = t.fields.lookup p.popPrivate.text) :
    t.guess q = t.guess p := by
  rw [Table.guess, Table.guess, Table.kindOf, Table.kindOf, hfields, fieldName_congr h,
    parentName_congr h]

end SchemaTypes.Snowflake

namespace SchemaTypes.Path

open Identifier Snowflake

/-- **Synthetic steps do not show in names.** A path with synthetic steps put in anywhere below its
root has the same name, and its end is taken for the same kind of snowflake by every table that does
not list either path, without the synthetic steps at its end. -/
theorem naming_of_padded {p q : Path} (h : Padded p q) :
    q.exportedName = p.exportedName ∧
      ∀ t : Table, t.fields.lookup p.popPrivate.text = none →
        t.fields.lookup q.popPrivate.text = none → t.guess q = t.guess p := by
  refine ⟨exportedName_congr h.visible_eq, fun t hp hq ↦ ?_⟩
  exact guess_congr h.visible_eq (hq.trans hp.symm)

/-- Steps at the end, in the middle and right below a synthetic root. -/
theorem naming_of_padded_roles :
    Padded (ofNames "_Guild" ["roles", "id"])
        (ofNames "_Guild" ["_allOf[0]", "", "roles", "_[]", "id", "_oneOf[1]"]) ∧
      (ofNames "_Guild" ["_allOf[0]", "", "roles", "_[]", "id", "_oneOf[1]"]).exportedName =
        (ofNames "_Guild" ["roles", "id"]).exportedName ∧
      (Table.mk [⟨"Role", []⟩] [("Guild.id", "Guild")]).guess
          (ofNames "_Guild" ["_allOf[0]", "", "roles", "_[]", "id", "_oneOf[1]"]) = "RoleID" := by
  have hpadded : Padded (ofNames "_Guild" ["roles", "id"])
      (ofNames "_Guild" ["_allOf[0]", "", "roles", "_[]", "id", "_oneOf[1]"]) :=
    ((((((Padded.root "_Guild").synthetic (by decide)).synthetic (by decide)).step
      "roles").synthetic (by decide)).step "id").synthetic (by decide)
  obtain ⟨hname, hguess⟩ := naming_of_padded hpadded
  refine ⟨hpadded, hname, ?_⟩
  rw [hguess _ (by decide +kernel) (by decide +kernel)]
  decide +kernel

end SchemaTypes.Path
