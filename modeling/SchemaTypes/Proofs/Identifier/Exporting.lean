import SchemaTypes.Proofs.Identifier.Likeness

/-!
# Identifiers that can be declared

A declaration needs a name that begins with a capital and goes on with letters and digits. All
signs of an identifier are letters and digits, whatever its name is. Its beginning is another
matter: an identifier begins where its name has the first letter or digit, small letters become
capitals there and digits stay. So an identifier can be declared unless a digit comes first in its
name, and then it cannot (`exportable_iff_first_letter`).
-/

namespace SchemaTypes.Identifier

/-- A name that can be declared and is visible outside: a capital, then letters and digits. -/
def Exportable (name : String) : Prop :=
  ∃ first rest, name.toList = first :: rest ∧ first.isUpper = true ∧
    ∀ c ∈ rest, isWordLetter c = true

/-- The first sign of a name that can be part of a word. -/
def firstLetter? (name : String) : Option Char := name.toList.find? isWordLetter

/-- An identifier begins with the first letter or digit of its name, regardless of case. -/
theorem map_toLower_head?_ofMixedCase (name : String) :
    (ofMixedCase name).toList.head?.map Char.toLower = (firstLetter? name).map Char.toLower := by
  have hletters : (ofMixedCase name).toList.filter isWordLetter = (ofMixedCase name).toList :=
    List.filter_eq_self.mpr (lettered_ofMixedCase name)
  have hkept := skeleton_ofMixedCase name
  rw [skeleton, skeleton, hletters] at hkept
  rw [← List.head?_map, hkept, List.head?_map, List.head?_filter, firstLetter?]

/-- Where an identifier begins with a letter, that is a capital. -/
theorem isUpper_eq_isAlpha_of_mem_head? {name : String} {c : Char}
    (hc : c ∈ (ofMixedCase name).toList.head?) : c.isUpper = c.isAlpha := by
  rw [ofMixedCase, Text.toList_onChars] at hc
  rw [Char.isAlpha, isLower_of_mem_head?_join hc, Bool.or_false]

/-- A text of letters and digits can be declared if it begins with a capital. -/
theorem Lettered.exportable_iff {name : String} (h : Lettered name) :
    Exportable name ↔ ∃ c ∈ name.toList.head?, c.isUpper = true := by
  constructor
  · rintro ⟨first, rest, hname, hupper, -⟩
    exact ⟨first, by rw [hname]; rfl, hupper⟩
  · rintro ⟨c, hc, hupper⟩
    obtain ⟨rest, hname⟩ := List.head?_eq_some_iff.mp hc
    refine ⟨c, rest, hname, hupper, fun d hd ↦ h d ?_⟩
    rw [hname]
    exact List.mem_cons_of_mem c hd

/-- An identifier is empty or can be declared unless a digit comes first in its name. -/
theorem exportable_ofMixedCase_iff (name : String) :
    ofMixedCase name = "" ∨ Exportable (ofMixedCase name) ↔
      ∀ c ∈ firstLetter? name, c.isAlpha = true := by
  have hhead := map_toLower_head?_ofMixedCase name
  rw [(lettered_ofMixedCase name).exportable_iff]
  cases hfirst : (ofMixedCase name).toList.head? with
  | none =>
    rw [hfirst, eq_comm, Option.map_none, Option.map_eq_none_iff] at hhead
    rw [hhead]
    refine iff_of_true (.inl ?_) fun c hc ↦ by cases hc
    rwa [List.head?_eq_none_iff, String.toList_eq_nil_iff] at hfirst
  | some d =>
    rw [hfirst, eq_comm, Option.map_some, Option.map_eq_some_iff] at hhead
    obtain ⟨c, hletter, hlower⟩ := hhead
    have hne : ofMixedCase name ≠ "" := by
      intro hempty
      rw [hempty] at hfirst
      cases hfirst
    have hupper : d.isUpper = d.isAlpha := isUpper_eq_isAlpha_of_mem_head? hfirst
    have halpha : d.isAlpha = c.isAlpha := by
      rw [← Char.isAlpha_toLower_eq_isAlpha c, hlower, Char.isAlpha_toLower_eq_isAlpha]
    rw [hletter, or_iff_right hne]
    simp [hupper, halpha]

/-- **When an identifier can be declared.** In snake case and in mixed case, an identifier has no
signs but letters and digits. It is empty or begins with a capital exactly if the first letter or
digit of its name, if there is one, is no digit. -/
theorem exportable_iff_first_letter (name : String) :
    Lettered (ofSnakeCase name) ∧ Lettered (ofMixedCase name) ∧
      (ofSnakeCase name = "" ∨ Exportable (ofSnakeCase name) ↔
        ∀ c ∈ firstLetter? name, c.isAlpha = true) ∧
      (ofMixedCase name = "" ∨ Exportable (ofMixedCase name) ↔
        ∀ c ∈ firstLetter? name, c.isAlpha = true) := by
  refine ⟨lettered_ofSnakeCase name, lettered_ofMixedCase name, ?_,
    exportable_ofMixedCase_iff name⟩
  rw [ofSnakeCase_eq_ofMixedCase]
  exact exportable_ofMixedCase_iff name

/-- The identifier for a name with a digit in front is neither empty nor can it be declared. -/
theorem not_exportable_of_digit :
    ¬ ∀ name : String, (ofSnakeCase name = "" ∨ Exportable (ofSnakeCase name)) ∧
      (ofMixedCase name = "" ∨ Exportable (ofMixedCase name)) := by
  intro h
  have hsnake : ofSnakeCase "2fa_enabled" = "2FaEnabled" := by decide +kernel
  obtain hempty | ⟨first, rest, hname, hupper, -⟩ := (h "2fa_enabled").1
  · rw [hsnake] at hempty
    exact absurd hempty (by decide)
  · rw [hsnake] at hname
    obtain rfl : '2' = first := (List.cons.inj hname).1
    exact absurd hupper (by decide)

end SchemaTypes.Identifier
