import SchemaTypes.Proofs.Identifier.Scanning

/-!
# How words are spelled

The spelling of a word depends on its letters and not on their case, so that to spell a word again
changes nothing (`spell_spell`). A curated word is spelled as its list says wherever it is found as
a word, and underscores around it are enough for that, if it is a word at all: one with digits is
never found, since digits are words of their own (`spelling_kept_iff_no_digit`).
-/

namespace SchemaTypes.Identifier

/-! ## Spelling and case -/

theorem map_toUpper_map_toLower (w : List Char) :
    (w.map Char.toLower).map Char.toUpper = w.map Char.toUpper := by
  rw [List.map_map]
  exact List.map_congr_left fun c _ ↦ Char.toUpper_toLower_eq_toUpper c

theorem map_toUpper_spell (w : List Char) : (spell w).map Char.toUpper = w.map Char.toUpper := by
  rw [← map_toUpper_map_toLower, map_toLower_spell, map_toUpper_map_toLower]

/-- The form of a word that is not curated: a capital in front and small letters behind it. -/
def capitalise (w : List Char) : List Char :=
  (w.take 1).map Char.toUpper ++ (w.drop 1).map Char.toLower

theorem capitalise_map_toUpper (w : List Char) :
    capitalise (w.map Char.toUpper) = capitalise w := by
  rw [capitalise, capitalise, ← List.map_take, ← List.map_drop, List.map_map, List.map_map]
  congr 1
  · exact List.map_congr_left fun c _ ↦ Char.toUpper_toUpper_eq_toUpper c
  · exact List.map_congr_left fun c _ ↦ Char.toLower_toUpper_eq_toLower c

theorem spell_eq (w : List Char) : spell w =
    match specialWords.lookup (w.map Char.toUpper) with
    | some spelling => spelling
    | none =>
      if initialisms.contains (w.map Char.toUpper) then w.map Char.toUpper
      else capitalise (w.map Char.toUpper) := by
  rw [capitalise_map_toUpper]
  rfl

/-- A word is on the second list, on the first list, or on none. -/
theorem spell_eq_cases (w : List Char) :
    (∃ e ∈ specialWords, e.1 = w.map Char.toUpper ∧ spell w = e.2) ∨
      (w.map Char.toUpper ∈ initialisms ∧ spell w = w.map Char.toUpper) ∨
      (w.map Char.toUpper ∉ initialisms ∧ spell w = capitalise w) := by
  rw [← capitalise_map_toUpper w, spell_eq]
  split
  · next spelling hfound => exact .inl ⟨_, Entries.mem_of_lookup hfound, rfl, rfl⟩
  · split
    · next hmem => exact .inr (.inl ⟨List.contains_iff_mem.mp hmem, rfl⟩)
    · next hmem => exact .inr (.inr ⟨fun h ↦ hmem (List.contains_iff_mem.mpr h), rfl⟩)

/-- Words with the same letters are spelled alike. -/
theorem spell_congr {v w : List Char} (h : v.map Char.toUpper = w.map Char.toUpper) :
    spell v = spell w := by
  rw [spell_eq, spell_eq, h]

theorem spell_spell (w : List Char) : spell (spell w) = spell w :=
  spell_congr (map_toUpper_spell w)

/-! ## Names of letters only -/

theorem stripMarks_eq_self {cs : List Char} (h : ∀ c ∈ cs, isWordLetter c = true) :
    stripMarks cs = cs := by
  have hkept : (stripMarks cs).filter isWordLetter = cs := by
    rw [filter_stripMarks, List.filter_eq_self.mpr h]
  have hsublist : ((stripMarks cs).filter isWordLetter).Sublist (stripMarks cs) :=
    List.filter_sublist
  rw [hkept] at hsublist
  exact List.filter_sublist.antisymm hsublist

theorem toList_ofMixedCase (name : String) :
    (ofMixedCase name).toList = join (stripMarks name.toList) := by
  rw [ofMixedCase, Text.toList_onChars, mixedChars]

/-- Nothing is dropped from a name of letters before its words are found. -/
theorem Lettered.toList_ofMixedCase {name : String} (h : Lettered name) :
    (ofMixedCase name).toList = join name.toList := by
  rw [Identifier.toList_ofMixedCase, stripMarks_eq_self h]

/-! ## Curated words -/

/-- The curated words, each with the spelling that its list prescribes. -/
def curatedSpellings : List (List Char × List Char) :=
  initialisms.map (fun w ↦ (w, w)) ++ specialWords

/-- Curated words are kept in capitals and digits. -/
theorem signs_of_mem_curatedSpellings : ∀ e ∈ curatedSpellings, e.1 ≠ [] ∧
    ∀ c ∈ e.1, c.isUpper = true ∨ c.isDigit = true := by
  have hall : (curatedSpellings.all fun e ↦
      !e.1.isEmpty && e.1.all fun c ↦ c.isUpper || c.isDigit) = true := by decide +kernel
  intro e he
  have hentry := List.all_eq_true.mp hall e he
  simpa using hentry

theorem lower_of_mem_curatedSpellings : ∀ e ∈ curatedSpellings,
    Text.lower e.1 = e.1.map Char.toLower := by
  decide +kernel

/-- No word is on both lists, and none is on the second list twice. -/
theorem lookup_of_mem_curatedSpellings :
    (∀ w ∈ initialisms, specialWords.lookup w = none) ∧
      ∀ e ∈ specialWords, specialWords.lookup e.1 = some e.2 := by
  decide

theorem map_toUpper_eq_self {w : List Char} (h : ∀ c ∈ w, c.isLower = false) :
    w.map Char.toUpper = w := by
  refine (List.map_congr_left fun c hc ↦ ?_).trans (List.map_id w)
  exact Char.toUpper_eq_of_not_isLower (by simp [h c hc])

theorem map_toUpper_of_mem_curatedSpellings {w spelling : List Char}
    (h : (w, spelling) ∈ curatedSpellings) : w.map Char.toUpper = w := by
  refine map_toUpper_eq_self fun c hc ↦ ?_
  rcases (signs_of_mem_curatedSpellings _ h).2 c hc with hupper | hdigit
  · exact isLower_eq_false_of_isUpper hupper
  · exact isLower_eq_false_of_isDigit hdigit

/-- A curated word is spelled as its list says, whatever case it has. -/
theorem spell_of_mem_curatedSpellings {w spelling : List Char}
    (h : (w, spelling) ∈ curatedSpellings) {v : List Char} (hv : v.map Char.toUpper = w) :
    spell v = spelling := by
  rw [spell_eq, hv]
  rcases List.mem_append.mp h with h | h
  · obtain ⟨u, hu, hpair⟩ := List.mem_map.mp h
    cases hpair
    rw [lookup_of_mem_curatedSpellings.1 _ hu]
    exact if_pos (List.contains_iff_mem.mpr hu)
  · rw [lookup_of_mem_curatedSpellings.2 _ h]

/-- A curated word of capitals only, written small, is found as a word. -/
theorem join_lower_of_mem_curatedSpellings {w spelling : List Char}
    (h : (w, spelling) ∈ curatedSpellings) (hdigit : ∀ c ∈ w, c.isDigit = false) :
    join (Text.lower w) = spelling := by
  obtain ⟨hne, hsigns⟩ := signs_of_mem_curatedSpellings _ h
  have hsmall : ∀ d ∈ w.map Char.toLower, d.isLower = true := by
    refine List.forall_mem_map.mpr fun c hc ↦ ?_
    have hupper : c.isUpper = true := (hsigns c hc).resolve_right (by simp [hdigit c hc])
    rw [Char.isLower_toLower_eq_isAlpha, Char.isAlpha, hupper, Bool.true_or]
  have hcapitals : (w.map Char.toLower).map Char.toUpper = w := by
    rw [map_toUpper_map_toLower, map_toUpper_of_mem_curatedSpellings h]
  have hwords : words (w.map Char.toLower) = [w.map Char.toLower] := by
    obtain ⟨c, v, rfl⟩ := List.exists_cons_of_ne_nil hne
    obtain ⟨hc, hv⟩ := List.forall_mem_cons.mp hsmall
    exact words_of_forall_isLower (.inr hc) hv
  rw [lower_of_mem_curatedSpellings _ h, join, hwords, List.flatMap_singleton,
    spell_of_mem_curatedSpellings h hcapitals]

/-- The digits of a curated word are a word of their own, and the others do not make up for it. -/
theorem join_lower_of_digit : ∀ e ∈ curatedSpellings, e.1.any Char.isDigit = true →
    join (Text.lower e.1) = capitalise e.1 ∧ capitalise e.1 ≠ e.2 := by
  decide +kernel

theorem lettered_lower_of_mem_curatedSpellings {w spelling : List Char}
    (h : (w, spelling) ∈ curatedSpellings) : Lettered (String.ofList (Text.lower w)) := by
  rw [Lettered, String.toList_ofList, lower_of_mem_curatedSpellings _ h]
  refine List.forall_mem_map.mpr fun c hc ↦ isWordLetter_toLower ?_
  rcases (signs_of_mem_curatedSpellings _ h).2 c hc with hupper | hdigit
  · simp [isWordLetter, hupper]
  · simp [isWordLetter, hdigit]

/-- Between underscores, a curated word is read alone. -/
theorem ofSnakeCase_amid {w spelling : List Char} (h : (w, spelling) ∈ curatedSpellings)
    (a b : String) : ofSnakeCase (a ++ "_" ++ String.ofList (Text.lower w) ++ "_" ++ b) =
      ofSnakeCase a ++ String.ofList (join (Text.lower w)) ++ ofSnakeCase b := by
  have hword : ofMixedCase (String.ofList (Text.lower w)) =
      String.ofList (join (Text.lower w)) := by
    rw [← String.toList_inj, (lettered_lower_of_mem_curatedSpellings h).toList_ofMixedCase,
      String.toList_ofList, String.toList_ofList]
  simp only [ofSnakeCase_eq_ofMixedCase]
  rw [ofMixedCase_append_underscore, ofMixedCase_append_underscore, hword]

/-- **When a curated word keeps its spelling.** Between any two names in snake case, a curated word
in small letters is spelled as its list says exactly if it has no digit. One with a digit is never
found as a word: it begins with a capital and goes on in small letters. -/
theorem spelling_kept_iff_no_digit {w spelling : List Char}
    (h : (w, spelling) ∈ curatedSpellings) (a b : String) :
    (ofSnakeCase (a ++ "_" ++ String.ofList (Text.lower w) ++ "_" ++ b) =
        ofSnakeCase a ++ String.ofList spelling ++ ofSnakeCase b ↔
      ∀ c ∈ w, c.isDigit = false) ∧
    ((∃ c ∈ w, c.isDigit = true) →
      ofSnakeCase (a ++ "_" ++ String.ofList (Text.lower w) ++ "_" ++ b) =
        ofSnakeCase a ++ String.ofList (capitalise w) ++ ofSnakeCase b) := by
  have hdigits : (∃ c ∈ w, c.isDigit = true) →
      join (Text.lower w) = capitalise w ∧ capitalise w ≠ spelling := fun hex ↦
    join_lower_of_digit _ h (List.any_eq_true.mpr hex)
  rw [ofSnakeCase_amid h]
  refine ⟨⟨fun hkept ↦ ?_, fun hno ↦ ?_⟩, fun hex ↦ by rw [(hdigits hex).1]⟩
  · by_contra hex
    push Not at hex
    obtain ⟨hjoin, hne⟩ := hdigits (by simpa using hex)
    rw [hjoin, String.append_left_inj, String.append_right_inj, String.ofList_inj] at hkept
    exact hne hkept
  · rw [join_lower_of_mem_curatedSpellings h hno]

/-- A word of each list amid other words: one keeps its spelling and one does not. -/
theorem spelling_kept_iff_no_digit_ids :
    (("IDS".toList, "IDs".toList) ∈ curatedSpellings ∧
      ofSnakeCase "guild_ids_v2" = ofSnakeCase "guild" ++ "IDs" ++ ofSnakeCase "v2") ∧
    ("UTF8".toList, "UTF8".toList) ∈ curatedSpellings ∧
      ofSnakeCase "guild_utf8_v2" = ofSnakeCase "guild" ++ "Utf8" ++ ofSnakeCase "v2" := by
  have hids : ("IDS".toList, "IDs".toList) ∈ curatedSpellings := by decide +kernel
  have hutf8 : ("UTF8".toList, "UTF8".toList) ∈ curatedSpellings := by decide +kernel
  have hkept := (spelling_kept_iff_no_digit hids "guild" "v2").1.mpr (by simp)
  have hlost := (spelling_kept_iff_no_digit hutf8 "guild" "v2").2 (by simp)
  have hidsText : "guild" ++ "_" ++ String.ofList (Text.lower "IDS".toList) ++ "_" ++ "v2" =
      "guild_ids_v2" := by decide +kernel
  have hutf8Text : "guild" ++ "_" ++ String.ofList (Text.lower "UTF8".toList) ++ "_" ++ "v2" =
      "guild_utf8_v2" := by decide +kernel
  have hcapitalised : capitalise "UTF8".toList = "Utf8".toList := by decide +kernel
  rw [hidsText, String.ofList_toList] at hkept
  rw [hutf8Text, hcapitalised, String.ofList_toList] at hlost
  exact ⟨⟨hids, hkept⟩, hutf8, hlost⟩

/-- Not every curated word keeps its spelling. -/
theorem not_spelling_kept : ¬ ∀ e ∈ curatedSpellings, ∀ a b : String,
    ofSnakeCase (a ++ "_" ++ String.ofList (Text.lower e.1) ++ "_" ++ b) =
      ofSnakeCase a ++ String.ofList e.2 ++ ofSnakeCase b := by
  intro h
  have hkept := h ("UTF8".toList, "UTF8".toList) (by decide +kernel) "" ""
  revert hkept
  decide +kernel

end SchemaTypes.Identifier
