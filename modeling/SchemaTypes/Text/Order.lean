import SchemaTypes.Sorting

/-!
# Order of names

Names are sorted by the code points of their characters. Entries with equal names keep their order.
-/

namespace SchemaTypes.Text

/-- Entries in the order of their names. -/
def sortByName {α : Type} (entries : List (String × α)) : List (String × α) :=
  sorted (fun a b ↦ a.1 ≤ b.1) entries

/-- Names in order. -/
def sortNames (names : List String) : List String := sorted (fun a b ↦ a ≤ b) names

theorem sortByName_perm {α : Type} (entries : List (String × α)) :
    (sortByName entries).Perm entries :=
  sorted_perm _ _

theorem sortNames_perm (names : List String) : (sortNames names).Perm names :=
  sorted_perm _ _

@[simp] theorem mem_sortByName {α : Type} {e : String × α} {entries : List (String × α)} :
    e ∈ sortByName entries ↔ e ∈ entries :=
  (sortByName_perm entries).mem_iff

end SchemaTypes.Text
