/-!
# Named entries

A list of named entries in the order in which the names were first used. Setting a name that is
already there keeps its place, so the order tells when a name came up and the value what was said
about it last.
-/

namespace SchemaTypes.Entries

variable {α : Type}

/-- Sets the value of a name: a new name goes to the end, a known one keeps its place. -/
def set (name : String) (value : α) : List (String × α) → List (String × α)
  | [] => [(name, value)]
  | (n, v) :: rest => if n = name then (n, value) :: rest else (n, v) :: set name value rest

/-- Sets many names, one after the other. -/
def setAll (entries new : List (String × α)) : List (String × α) :=
  new.foldl (fun acc (name, value) ↦ set name value acc) entries

/-- Entries whose names may be repeated, with the last value of each name at its first place. -/
def ofList (entries : List (String × α)) : List (String × α) := setAll [] entries

/-- Takes a name out. -/
def erase (name : String) (entries : List (String × α)) : List (String × α) :=
  entries.filter fun e ↦ e.1 != name

/-- The names, in order. -/
def names (entries : List (String × α)) : List String := entries.map Prod.fst

theorem lookup_cons_eq_ite {κ : Type} [BEq κ] [LawfulBEq κ] [DecidableEq κ] (name n : κ) (v : α)
    (rest : List (κ × α)) :
    List.lookup name ((n, v) :: rest) = if name = n then some v else rest.lookup name := by
  by_cases h : name = n
  · simp [h]
  · have : (name == n) = false := by simpa using h
    simp [List.lookup_cons, this, h]

/-- What is found under a key is one of the entries. -/
theorem mem_of_lookup {κ : Type} [BEq κ] [LawfulBEq κ] {key : κ} {value : α}
    {entries : List (κ × α)} (h : entries.lookup key = some value) : (key, value) ∈ entries := by
  obtain ⟨before, after, rfl, -⟩ := List.lookup_eq_some_iff.mp h
  exact List.mem_append_right before List.mem_cons_self

/-- A name is found exactly when it is one of the names. -/
theorem isSome_lookup_iff (name : String) (entries : List (String × α)) :
    (entries.lookup name).isSome ↔ name ∈ names entries := by
  rw [List.lookup_isSome_iff, names, List.mem_map]
  constructor
  · rintro ⟨e, he, h⟩
    exact ⟨e, he, (beq_iff_eq.mp h).symm⟩
  · rintro ⟨e, he, h⟩
    exact ⟨e, he, beq_iff_eq.mpr h.symm⟩

theorem lookup_set (name other : String) (value : α) (entries : List (String × α)) :
    (set name value entries).lookup other =
      if other = name then some value else entries.lookup other := by
  induction entries with
  | nil => simp [set, lookup_cons_eq_ite]
  | cons e rest ih =>
    obtain ⟨n, v⟩ := e
    by_cases hn : n = name
    · subst hn
      by_cases ho : other = n <;> simp [set, lookup_cons_eq_ite, ho]
    · by_cases ho : other = n
      · subst ho
        simp [set, hn]
      · simp [set, lookup_cons_eq_ite, hn, ho, ih]

/-- What is found behind entries that were set one after the other is one of them or was there. -/
theorem of_lookup_setAll {name : String} {value : α} {old entries : List (String × α)}
    (h : (setAll old entries).lookup name = some value) :
    old.lookup name = some value ∨ (name, value) ∈ entries := by
  induction entries generalizing old with
  | nil => exact .inl h
  | cons e rest ih =>
    rcases ih h with hset | hmem
    · rw [lookup_set] at hset
      split at hset
      · next hname =>
        rw [hname, ← Option.some.inj hset]
        exact .inr List.mem_cons_self
      · exact .inl hset
    · exact .inr (List.mem_cons_of_mem e hmem)

/-- What is found among entries that were set one after the other is one of them. -/
theorem mem_of_lookup_ofList {name : String} {value : α} {entries : List (String × α)}
    (h : (ofList entries).lookup name = some value) : (name, value) ∈ entries := by
  rcases of_lookup_setAll h with hnone | hmem
  · cases hnone
  · exact hmem

theorem lookup_erase (name other : String) (entries : List (String × α)) :
    (erase name entries).lookup other = if other = name then none else entries.lookup other := by
  induction entries with
  | nil => simp [erase]
  | cons e rest ih =>
    obtain ⟨n, v⟩ := e
    rw [erase] at ih
    by_cases hn : n = name
    · subst hn
      by_cases ho : other = n
      · simpa [erase, ho] using ih
      · simpa [erase, lookup_cons_eq_ite, ho] using ih
    · by_cases ho : other = n
      · subst ho
        simp [erase, hn]
      · simp [erase, lookup_cons_eq_ite, hn, ho, ih]

/-- Setting a name adds it to the names exactly when it is new. -/
theorem names_set (name : String) (value : α) (entries : List (String × α)) :
    names (set name value entries) =
      if name ∈ names entries then names entries else names entries ++ [name] := by
  induction entries with
  | nil => simp [set, names]
  | cons e rest ih =>
    obtain ⟨n, v⟩ := e
    simp only [names] at ih
    by_cases hn : n = name
    · simp [set, names, hn]
    · have : name ≠ n := fun h ↦ hn h.symm
      by_cases hm : name ∈ rest.map Prod.fst <;> simp_all [set, names]

end SchemaTypes.Entries
