import SchemaTypes.Proofs.Run.Collection
import SchemaTypes.Proofs.Text.Order

/-!
# Events in another order

The registry keeps the first text under a name, so in general it shows the order of events. It does
not as long as no issue is recorded: then all texts under a name are the same, and which of them
came first does not matter. That no issue is recorded does not depend on the order, either
(`recorded_eq_nil_of_perm`).

Needed packages are a set, whatever the order. Listing them may fail, and the failure names those
that happened to stand first, so that only a list that there is can be the same
(`imports_eq_ok_iff_of_perm`).
-/

namespace SchemaTypes

open Event

/-! ## The registry -/

namespace Run

variable {r : Run} {xs ys : List Event}

/-- While no issue is recorded, a registered text is the one that is kept. -/
theorem lookup_registry_of_mem (hxs : r.recorded xs = []) {name text : String}
    (h : (name, text) ∈ registrations xs) : (r.applyAll xs).registry.lookup name = some text :=
  (recorded_eq_nil_iff.mp hxs).2 (name, text) h

theorem lookup_registry_of_perm (h : xs.Perm ys) (hxs : r.recorded xs = []) (name : String) :
    (r.applyAll ys).registry.lookup name = (r.applyAll xs).registry.lookup name := by
  rw [lookup_registry_applyAll, lookup_registry_applyAll]
  cases hr : r.registry.lookup name with
  | some kept => rfl
  | none =>
    have hregistrations : (registrations xs).Perm (registrations ys) := h.filterMap _
    rw [Option.none_or, Option.none_or]
    cases hy : (registrations ys).lookup name with
    | none =>
      rw [List.lookup_eq_none_iff] at hy
      symm
      rw [List.lookup_eq_none_iff]
      exact fun d hd ↦ hy d (hregistrations.mem_iff.mp hd)
    | some text =>
      have hmem : (name, text) ∈ registrations xs :=
        hregistrations.mem_iff.mpr (Entries.mem_of_lookup hy)
      have hkept := lookup_registry_of_mem hxs hmem
      rw [lookup_registry_applyAll, hr, Option.none_or] at hkept
      exact hkept.symm

/-- That no issue is recorded does not depend on the order of events. -/
theorem recorded_eq_nil_of_perm (h : xs.Perm ys) (hxs : r.recorded xs = []) :
    r.recorded ys = [] := by
  obtain ⟨hreports, hkept⟩ := recorded_eq_nil_iff.mp hxs
  refine recorded_eq_nil_iff.mpr ⟨?_, fun d hd ↦ ?_⟩
  · have hperm : (reports xs).Perm (reports ys) := h.filterMap _
    rw [hreports] at hperm
    exact hperm.nil_eq.symm
  · rw [lookup_registry_of_perm h hxs]
    have hperm : (registrations xs).Perm (registrations ys) := h.filterMap _
    exact hkept d (hperm.mem_iff.mpr hd)

theorem registry_perm_of_perm (hr : (Entries.names r.registry).Nodup) (h : xs.Perm ys)
    (hxs : r.recorded xs = []) :
    (r.applyAll xs).registry.Perm (r.applyAll ys).registry := by
  refine Entries.perm_of_lookup_eq (nodup_names_registry_applyAll hr xs)
    (nodup_names_registry_applyAll hr ys) fun name ↦ ?_
  exact (lookup_registry_of_perm h hxs name).symm

/-- Hoisted declarations do not show the order of events while no issue is recorded. -/
theorem items_eq_of_perm (hr : (Entries.names r.registry).Nodup) (h : xs.Perm ys)
    (hxs : r.recorded xs = []) : (r.applyAll xs).items = (r.applyAll ys).items :=
  Text.sortByName_eq_of_perm (registry_perm_of_perm hr h hxs)
    (nodup_names_registry_applyAll hr xs)

/-! ## Packages -/

/-- Which packages are needed does not depend on the order of events. -/
theorem required_perm_of_perm (hr : r.required.Nodup) (h : xs.Perm ys) :
    (r.applyAll xs).required.Perm (r.applyAll ys).required := by
  refine (List.perm_ext_iff_of_nodup (nodup_required_applyAll hr xs)
    (nodup_required_applyAll hr ys)).mpr fun path ↦ ?_
  have hrequirements : (requirements xs).Perm (requirements ys) := h.filterMap _
  rw [mem_required_applyAll, mem_required_applyAll, hrequirements.mem_iff]

end Run

/-- Keys have texts exactly if they are texts. -/
theorem Json.mapM_text?_eq_some_iff {keys : List Json.Key} {names : List String} :
    keys.mapM Json.Key.text? = some names ↔ keys = names.map .text := by
  constructor
  · intro h
    induction keys generalizing names with
    | nil =>
      cases h
      rfl
    | cons key rest ih =>
      rw [List.mapM_cons] at h
      obtain ⟨name, hname, hrest⟩ := Option.bind_eq_some_iff.mp h
      obtain ⟨tail, htail, hnames⟩ := Option.bind_eq_some_iff.mp hrest
      cases hnames
      cases key <;> cases hname
      rw [ih htail, List.map_cons]
  · rintro rfl
    induction names with
    | nil => rfl
    | cons name tail ih =>
      rw [List.map_cons, List.mapM_cons, ih]
      rfl

/-- Keys that are texts are the keys of their texts. -/
theorem Json.map_text_filterMap_text? {keys : List Json.Key}
    (h : ∀ key ∈ keys, ∃ s, key = .text s) :
    (keys.filterMap Json.Key.text?).map .text = keys := by
  induction keys with
  | nil => rfl
  | cons key rest ih =>
    obtain ⟨s, rfl⟩ := h key List.mem_cons_self
    have htext : Key.text? (.text s) = some s := rfl
    rw [List.filterMap_cons_some htext, List.map_cons,
      ih fun other hother ↦ h other (List.mem_cons_of_mem _ hother)]

namespace Run

/-- Packages are listed if there is at most one, or if all of them are texts. -/
theorem imports_eq_ok_iff {r : Run} {keys : List Json.Key} :
    r.imports = .ok keys ↔
      if r.required.length ≤ 1 then keys = r.required
      else ∃ names : List String, r.required = names.map .text ∧
        keys = (Text.sortNames names).map .text := by
  rw [imports]
  match r.required with
  | [] => simp [eq_comm]
  | [key] => simp [eq_comm]
  | a :: b :: rest =>
    rw [if_neg (by simp)]
    constructor
    · intro h
      dsimp only at h
      split at h
      · next names hnames =>
        cases h
        exact ⟨names, Json.mapM_text?_eq_some_iff.mp hnames, rfl⟩
      · cases h
    · rintro ⟨names, hnames, rfl⟩
      dsimp only
      rw [Json.mapM_text?_eq_some_iff.mpr hnames]

/-- Packages are listed that are needed, and no others. -/
theorem mem_of_imports_eq_ok {r : Run} {keys : List Json.Key} (h : r.imports = .ok keys)
    {key : Json.Key} : key ∈ keys ↔ key ∈ r.required := by
  rw [imports_eq_ok_iff] at h
  split at h
  · rw [h]
  · obtain ⟨names, hnames, rfl⟩ := h
    rw [hnames]
    exact ((Text.sortNames_perm names).map Json.Key.text).mem_iff

/-- Runs that need the same packages list them alike, if they list them at all. -/
theorem imports_eq_ok_of_perm {r₁ r₂ : Run} (h : r₁.required.Perm r₂.required)
    {keys : List Json.Key} (h₁ : r₁.imports = .ok keys) : r₂.imports = .ok keys := by
  rw [imports_eq_ok_iff] at h₁ ⊢
  rw [← h.length_eq]
  split
  · next hshort =>
    rw [if_pos hshort] at h₁
    rw [h₁]
    match hr : r₁.required with
    | [] =>
      rw [hr] at h
      exact h.nil_eq
    | [key] =>
      rw [hr] at h
      exact (List.singleton_perm.mp h)
    | a :: b :: rest => simp [hr] at hshort
  · next hlong =>
    rw [if_neg hlong] at h₁
    obtain ⟨names, hnames, rfl⟩ := h₁
    rw [hnames] at h
    have hfilter : (names.map Json.Key.text).filterMap Json.Key.text? = names := by
      simp [List.filterMap_map, Function.comp_def, Json.Key.text?]
    refine ⟨r₂.required.filterMap Json.Key.text?, ?_, ?_⟩
    · refine (Json.map_text_filterMap_text? fun key hkey ↦ ?_).symm
      obtain ⟨name, -, rfl⟩ := List.mem_map.mp (h.mem_iff.mpr hkey)
      exact ⟨name, rfl⟩
    · have hperm : names.Perm (r₂.required.filterMap Json.Key.text?) := by
        have hsame := h.filterMap Json.Key.text?
        rwa [hfilter] at hsame
      rw [Text.sortNames_eq_of_perm hperm]

theorem imports_eq_ok_iff_of_perm {r₁ r₂ : Run} (h : r₁.required.Perm r₂.required)
    (keys : List Json.Key) : r₁.imports = .ok keys ↔ r₂.imports = .ok keys :=
  ⟨imports_eq_ok_of_perm h, imports_eq_ok_of_perm h.symm⟩

end Run

end SchemaTypes
