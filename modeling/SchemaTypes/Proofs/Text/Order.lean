import Mathlib.Data.List.Nodup
import SchemaTypes.Entries
import SchemaTypes.Text.Order

/-!
# Entries that differ in name

Where no name occurs twice, a list of entries is determined up to its order by what is found under
each name (`Entries.perm_of_lookup_eq`), and sorting it by name leaves nothing of the order it had
(`Text.sortByName_eq_of_perm`).
-/

namespace SchemaTypes

namespace Entries

variable {α : Type}

section Keys

variable {κ β : Type} [BEq κ] [LawfulBEq κ] [DecidableEq κ]

/-- Where keys are distinct, what is found under them does not depend on the order of entries. -/
theorem lookup_eq_of_perm {xs ys : List (κ × α)} (h : xs.Perm ys) (hnodup : (xs.map Prod.fst).Nodup)
    (key : κ) : xs.lookup key = ys.lookup key := by
  induction h with
  | nil => rfl
  | cons e _ ih =>
    rw [List.map_cons, List.nodup_cons] at hnodup
    rw [lookup_cons_eq_ite, lookup_cons_eq_ite, ih hnodup.2]
  | swap a b rest =>
    have hne : b.1 ≠ a.1 := by
      rw [List.map_cons, List.map_cons, List.nodup_cons] at hnodup
      exact fun heq ↦ hnodup.1 (heq ▸ List.mem_cons_self)
    rw [lookup_cons_eq_ite, lookup_cons_eq_ite, lookup_cons_eq_ite, lookup_cons_eq_ite]
    by_cases hb : key = b.1
    · rw [if_pos hb, if_neg (hb ▸ hne), if_pos hb]
    · rw [if_neg hb, if_neg hb]
  | trans hxy _ ihx ihy =>
    rw [ihx hnodup, ihy ((hxy.map Prod.fst).nodup_iff.mp hnodup)]

theorem lookup_map_snd (f : α → β) (xs : List (κ × α)) (key : κ) :
    (xs.map fun (k, value) ↦ (k, f value)).lookup key = (xs.lookup key).map f := by
  induction xs with
  | nil => rfl
  | cons e rest ih =>
    rw [List.map_cons, lookup_cons_eq_ite, lookup_cons_eq_ite, ih]
    split <;> rfl

end Keys

theorem names_map_snd {β : Type} (f : α → β) (xs : List (String × α)) :
    names (xs.map fun (name, value) ↦ (name, f value)) = names xs := by
  rw [names, names, List.map_map]
  rfl

/-- Where names are distinct, an entry is found under its name. -/
theorem lookup_eq_some_iff_mem {entries : List (String × α)} (h : (names entries).Nodup)
    {name : String} {value : α} : entries.lookup name = some value ↔ (name, value) ∈ entries := by
  constructor
  · intro hlookup
    exact mem_of_lookup hlookup
  · intro hmem
    have hsome : (entries.lookup name).isSome :=
      (isSome_lookup_iff name entries).mpr (List.mem_map_of_mem hmem)
    obtain ⟨other, hother⟩ := Option.isSome_iff_exists.mp hsome
    have hsame : (name, other) = (name, value) :=
      List.inj_on_of_nodup_map h (mem_of_lookup hother) hmem rfl
    cases hsame
    exact hother

/-- Lists of entries with distinct names hold the same if they answer alike. -/
theorem perm_of_lookup_eq {xs ys : List (String × α)} (hxs : (names xs).Nodup)
    (hys : (names ys).Nodup) (h : ∀ name, xs.lookup name = ys.lookup name) : xs.Perm ys := by
  refine (List.perm_ext_iff_of_nodup (List.Nodup.of_map _ hxs) (List.Nodup.of_map _ hys)).mpr ?_
  rintro ⟨name, value⟩
  rw [← lookup_eq_some_iff_mem hxs, ← lookup_eq_some_iff_mem hys, h]

/-- Entries that were set one after the other have distinct names. -/
theorem nodup_names_ofList (entries : List (String × α)) : (names (ofList entries)).Nodup := by
  have hsetAll : ∀ old : List (String × α), (names old).Nodup →
      (names (setAll old entries)).Nodup := by
    induction entries with
    | nil => exact fun old hold ↦ hold
    | cons e rest ih =>
      refine fun old hold ↦ ih _ ?_
      rw [names_set]
      split
      · exact hold
      · next hnew => exact List.nodup_append_comm.mp (List.nodup_cons.mpr ⟨hnew, hold⟩)
  exact hsetAll [] .nil

end Entries

namespace Text

variable {α : Type}

/-- What is sorted by a name that it has is in the order of the names. -/
theorem pairwise_sorted_name (name : α → String) (xs : List α) :
    (sorted (fun a b ↦ name a ≤ name b) xs).Pairwise fun a b ↦ name a ≤ name b := by
  refine (pairwise_sorted ?_ ?_ xs).imp of_decide_eq_true
  · intro a b c hab hbc
    exact decide_eq_true (String.le_trans (of_decide_eq_true hab) (of_decide_eq_true hbc))
  · intro a b
    simpa using String.le_total (name a) (name b)

theorem pairwise_sortByName (entries : List (String × α)) :
    (sortByName entries).Pairwise fun a b ↦ a.1 ≤ b.1 :=
  pairwise_sorted_name Prod.fst entries

theorem pairwise_sortNames (names : List String) : (sortNames names).Pairwise (· ≤ ·) :=
  pairwise_sorted_name id names

/-- Distinct names in order are in strict order. -/
theorem pairwise_lt_names {entries : List (String × α)} (hnodup : (Entries.names entries).Nodup)
    (h : entries.Pairwise fun a b ↦ a.1 ≤ b.1) : (Entries.names entries).Pairwise (· < ·) := by
  have hle : (Entries.names entries).Pairwise (· ≤ ·) := h.map _ fun _ _ hab ↦ hab
  refine (hle.and hnodup).imp fun {a b} hab ↦ String.not_le.mp fun hba ↦ ?_
  exact hab.2 (String.le_antisymm hab.1 hba)

theorem names_sortByName_perm (entries : List (String × α)) :
    (Entries.names (sortByName entries)).Perm (Entries.names entries) :=
  (sortByName_perm entries).map Prod.fst

/-- Sorted lists of entries with distinct names are equal if they hold the same. -/
theorem eq_of_perm_of_pairwise {xs ys : List (String × α)} (h : xs.Perm ys)
    (hnodup : (Entries.names xs).Nodup) (hxs : xs.Pairwise fun a b ↦ a.1 ≤ b.1)
    (hys : ys.Pairwise fun a b ↦ a.1 ≤ b.1) : xs = ys := by
  refine List.Perm.eq_of_pairwise (fun a b ha hb hab hba ↦ ?_) hxs hys h
  exact List.inj_on_of_nodup_map hnodup ha (h.mem_iff.mpr hb) (String.le_antisymm hab hba)

/-- Sorted lists of entries with distinct names are equal if they have the same members. -/
theorem eq_of_mem_iff {xs ys : List (String × α)} (hxs : (Entries.names xs).Nodup)
    (hys : (Entries.names ys).Nodup) (hxs' : xs.Pairwise fun a b ↦ a.1 ≤ b.1)
    (hys' : ys.Pairwise fun a b ↦ a.1 ≤ b.1) (h : ∀ e, e ∈ xs ↔ e ∈ ys) : xs = ys :=
  eq_of_perm_of_pairwise
    ((List.perm_ext_iff_of_nodup (hxs.of_map Prod.fst) (hys.of_map Prod.fst)).mpr h) hxs hxs' hys'

/-- Of entries with distinct names, sorting by name leaves no trace of the order they had. -/
theorem sortByName_eq_of_perm {xs ys : List (String × α)} (h : xs.Perm ys)
    (hnodup : (Entries.names xs).Nodup) : sortByName xs = sortByName ys := by
  refine eq_of_perm_of_pairwise ?_ ?_ (pairwise_sortByName xs) (pairwise_sortByName ys)
  · exact (sortByName_perm xs).trans (h.trans (sortByName_perm ys).symm)
  · exact (names_sortByName_perm xs).nodup_iff.mpr hnodup

theorem sortByName_eq_self {entries : List (String × α)} (hnodup : (Entries.names entries).Nodup)
    (h : entries.Pairwise fun a b ↦ a.1 ≤ b.1) : sortByName entries = entries :=
  (eq_of_perm_of_pairwise (sortByName_perm entries).symm hnodup h (pairwise_sortByName _)).symm

theorem sortNames_eq_of_perm {xs ys : List String} (h : xs.Perm ys) :
    sortNames xs = sortNames ys := by
  refine List.Perm.eq_of_pairwise (fun _ _ _ _ ↦ String.le_antisymm) (pairwise_sortNames xs)
    (pairwise_sortNames ys) ?_
  exact (sortNames_perm xs).trans (h.trans (sortNames_perm ys).symm)

end Text

end SchemaTypes
