import Mathlib
import SchemaTypes.Entries
import SchemaTypes.Identifier.Basic

/-!
# Letters of identifiers

An identifier is spelled with as many word letters as the name has that it is made of, and with
nothing else (`length_ofMixedCase`, `lettered_ofMixedCase`): words are taken apart and put together
without loss, and the spelling of a word is as long as the word. Underscores separate words as
blanks do, so that a name has one identifier, in snake case and in mixed case
(`ofSnakeCase_eq_ofMixedCase`).
-/

namespace SchemaTypes.Identifier

/-- How many letters of a name can be part of a word. -/
def weight (name : String) : Nat := name.toList.countP isWordLetter

/-- All letters of a name can be part of a word. -/
def Lettered (name : String) : Prop := ∀ c ∈ name.toList, isWordLetter c = true

theorem weight_eq_length {name : String} (h : Lettered name) : weight name = name.length := by
  rw [weight, List.countP_eq_length.mpr h, String.length_toList]

theorem Lettered.append {s t : String} (hs : Lettered s) (ht : Lettered t) : Lettered (s ++ t) := by
  intro c hc
  rw [String.toList_append, List.mem_append] at hc
  exact hc.elim (hs c) (ht c)

theorem lettered_join {names : List String} (h : ∀ name ∈ names, Lettered name) :
    Lettered (String.join names) := by
  intro c hc
  rw [String.toList_join, List.mem_flatMap] at hc
  obtain ⟨name, hmem, hc⟩ := hc
  exact h name hmem c hc

/-- Numbers are written with letters of words. -/
theorem lettered_toString (n : Nat) : Lettered (toString n) := by
  intro c hc
  have hmem : c ∈ Nat.toDigits 10 n := by simpa [Nat.toString_eq_repr, Nat.repr] using hc
  rw [isWordLetter, Nat.isDigit_of_mem_toDigits (by decide) (by decide) hmem, Bool.or_true]

/-- A name that begins with a letter of a word is not synthetic. -/
theorem Lettered.isPrivate_eq_false {name : String} (h : Lettered name) (hne : name ≠ "") :
    isPrivate name = false := by
  unfold isPrivate
  split
  · next hnil => exact absurd (String.toList_eq_nil_iff.mp hnil) hne
  · next c rest hcons =>
    rw [beq_eq_false_iff_ne]
    rintro rfl
    have hletter := h '_' (by simp [hcons])
    revert hletter
    decide

/-! ## Letters and words -/

theorem isWordLetter_iff {c : Char} : isWordLetter c = true ↔
    (65 ≤ c.toNat ∧ c.toNat ≤ 90) ∨ (97 ≤ c.toNat ∧ c.toNat ≤ 122) ∨
      (48 ≤ c.toNat ∧ c.toNat ≤ 57) := by
  simp [isWordLetter, Char.isUpper, Char.isLower, Char.isDigit, UInt32.le_iff_toNat_le,
    ← Char.toNat_val, or_assoc]

theorem isWordLetter_toUpper {c : Char} (h : isWordLetter c = true) :
    isWordLetter c.toUpper = true := by
  rw [isWordLetter_iff] at h ⊢
  unfold Char.toUpper
  split
  · next hlower =>
    -- The difference is negative, so that adding it goes once around.
    have hsum : (c.val + ('A'.val - 'a'.val)).toNat = (c.toNat + 4294967264) % 4294967296 :=
      UInt32.toNat_add _ _
    rw [UInt32.le_iff_toNat_le, UInt32.le_iff_toNat_le] at hlower
    change 97 ≤ c.toNat ∧ c.toNat ≤ 122 at hlower
    refine .inl ?_
    change 65 ≤ (c.val + ('A'.val - 'a'.val)).toNat ∧ (c.val + ('A'.val - 'a'.val)).toNat ≤ 90
    omega
  · exact h

theorem isWordLetter_toLower {c : Char} (h : isWordLetter c = true) :
    isWordLetter c.toLower = true := by
  rw [isWordLetter_iff] at h ⊢
  unfold Char.toLower
  split
  · next hupper =>
    have hsum : (c.val + ('a'.val - 'A'.val)).toNat = (c.toNat + 32) % 4294967296 :=
      UInt32.toNat_add _ _
    rw [ge_iff_le, UInt32.le_iff_toNat_le, UInt32.le_iff_toNat_le] at hupper
    change 65 ≤ c.toNat ∧ c.toNat ≤ 90 at hupper
    refine .inr (.inl ?_)
    change 97 ≤ (c.val + ('a'.val - 'A'.val)).toNat ∧
      (c.val + ('a'.val - 'A'.val)).toNat ≤ 122
    omega
  · exact h

theorem flatten_consWord (c : Char) (rest : List Char) (ws : List (List Char)) :
    (consWord c rest ws).flatten = c :: ws.flatten := by
  unfold consWord
  split
  · rfl
  · split
    · split <;> rfl
    · rfl

/-- The words of a name are its word letters, in order. -/
theorem flatten_words (cs : List Char) : (words cs).flatten = cs.filter isWordLetter := by
  induction cs with
  | nil => rfl
  | cons c rest ih =>
    rw [words]
    split
    · next h => rw [flatten_consWord, ih, List.filter_cons_of_pos h]
    · next h => rw [ih, List.filter_cons_of_neg h]

theorem isWordLetter_of_mem_words {cs w : List Char} (hw : w ∈ words cs) :
    ∀ c ∈ w, isWordLetter c = true := by
  intro c hc
  have hmem : c ∈ (words cs).flatten := List.mem_flatten.mpr ⟨w, hw, hc⟩
  rw [flatten_words] at hmem
  exact (List.mem_filter.mp hmem).2

/-! ## Spelling -/

/-- A curated spelling has a letter for each letter of the word, and no other signs. -/
theorem of_mem_specialWords : ∀ e ∈ specialWords,
    e.2.length = e.1.length ∧ ∀ c ∈ e.2, isWordLetter c = true := by
  have hall : (specialWords.all fun e ↦
      e.2.length == e.1.length && e.2.all isWordLetter) = true := by decide
  intro e he
  have hentry := List.all_eq_true.mp hall e he
  rwa [Bool.and_eq_true, beq_iff_eq, List.all_eq_true] at hentry

theorem length_spell (w : List Char) : (spell w).length = w.length := by
  unfold spell
  dsimp only
  split
  · next spelling hfound =>
    rw [(of_mem_specialWords _ (Entries.mem_of_lookup hfound)).1, List.length_map]
  · split
    · exact List.length_map _
    · rw [List.length_append, List.length_map, List.length_map, ← List.length_append,
        List.take_append_drop]

theorem isWordLetter_of_mem_spell {w : List Char} (hw : ∀ c ∈ w, isWordLetter c = true) :
    ∀ c ∈ spell w, isWordLetter c = true := by
  have hupper : ∀ c ∈ w.map Char.toUpper, isWordLetter c = true :=
    List.forall_mem_map.mpr fun c hc ↦ isWordLetter_toUpper (hw c hc)
  unfold spell
  dsimp only
  split
  · next spelling hfound => exact (of_mem_specialWords _ (Entries.mem_of_lookup hfound)).2
  · split
    · exact hupper
    · refine List.forall_mem_append.mpr ⟨?_, ?_⟩
      · refine List.forall_mem_map.mpr fun c hc ↦ ?_
        exact isWordLetter_toUpper (hw c (List.mem_of_mem_take hc))
      · refine List.forall_mem_map.mpr fun c hc ↦ ?_
        exact isWordLetter_toLower (hw c (List.mem_of_mem_drop hc))

theorem length_join (cs : List Char) : (join cs).length = cs.countP isWordLetter := by
  have hspell : (words cs).map (fun w ↦ (spell w).length) = (words cs).map List.length :=
    List.map_congr_left fun w _ ↦ length_spell w
  rw [join, List.length_flatMap, hspell, ← List.length_flatten, flatten_words,
    List.countP_eq_length_filter]

theorem isWordLetter_of_mem_join {cs : List Char} {c : Char} (hc : c ∈ join cs) :
    isWordLetter c = true := by
  obtain ⟨w, hw, hc⟩ := List.mem_flatMap.mp hc
  exact isWordLetter_of_mem_spell (isWordLetter_of_mem_words hw) c hc

/-! ## Identifiers -/

/-- No letter of a word is dropped from a name. -/
theorem filter_stripMarks (cs : List Char) :
    (stripMarks cs).filter isWordLetter = cs.filter isWordLetter := by
  rw [stripMarks, List.filter_filter]
  refine List.filter_congr fun c _ ↦ ?_
  rw [Bool.eq_iff_iff, Bool.and_eq_true, and_iff_left_iff_imp]
  intro h
  rw [Bool.not_eq_true']
  simp only [Bool.or_eq_false_iff, beq_eq_false_iff_ne]
  refine ⟨⟨⟨?_, ?_⟩, ?_⟩, ?_⟩ <;>
  · rintro rfl
    exact absurd h (by decide)

theorem countP_stripMarks (cs : List Char) :
    (stripMarks cs).countP isWordLetter = cs.countP isWordLetter := by
  rw [List.countP_eq_length_filter, filter_stripMarks, ← List.countP_eq_length_filter]

theorem length_ofMixedCase (name : String) : (ofMixedCase name).length = weight name := by
  rw [ofMixedCase, ← String.length_toList, Text.toList_onChars, mixedChars, length_join,
    countP_stripMarks, weight]

theorem lettered_ofMixedCase (name : String) : Lettered (ofMixedCase name) := by
  intro c hc
  rw [ofMixedCase, Text.toList_onChars] at hc
  exact isWordLetter_of_mem_join hc

theorem lettered_ofSnakeCase (name : String) : Lettered (ofSnakeCase name) := by
  intro c hc
  rw [ofSnakeCase, Text.toList_onChars] at hc
  exact isWordLetter_of_mem_join hc

theorem lettered_ofConstant (title : String) : Lettered (ofConstant title) := by
  intro c hc
  rw [ofConstant, Text.toList_onChars] at hc
  exact isWordLetter_of_mem_join hc

theorem Lettered.removeEnding {name : String} (h : Lettered name) (ending : String) :
    Lettered (Text.removeEnding name ending) := by
  intro c hc
  rw [Text.removeEnding, Text.toList_onChars, Text.dropEnding] at hc
  split at hc
  · exact h c (List.mem_of_mem_take hc)
  · exact h c hc

/-- Nothing is joined to a word across a character that is none of its letters. -/
theorem joins_of_not_isWordLetter {d : Char} (h : isWordLetter d = false) (c : Char)
    (w : List Char) : joins c d w = false := by
  rw [isWordLetter, Bool.or_eq_false_iff, Bool.or_eq_false_iff] at h
  obtain ⟨⟨hupper, hlower⟩, hdigit⟩ := h
  rw [joins, hupper, hlower, hdigit]
  simp

section

variable {f : Char → Char} (hletter : ∀ c, isWordLetter c = true → f c = c)
  (hother : ∀ c, isWordLetter c = false → isWordLetter (f c) = false)

include hletter hother

theorem joins_map (c d : Char) (w : List Char) : joins c (f d) w = joins c d w := by
  cases hd : isWordLetter d with
  | true => rw [hletter d hd]
  | false =>
    rw [joins_of_not_isWordLetter (hother d hd), joins_of_not_isWordLetter hd]

/-- The words of a name do not depend on which characters are between them. -/
theorem words_map (cs : List Char) : words (cs.map f) = words cs := by
  induction cs with
  | nil => rfl
  | cons c rest ih =>
    rw [List.map_cons]
    cases hc : isWordLetter c with
    | false =>
      rw [words_cons_of_not_isWordLetter (hother c hc), words_cons_of_not_isWordLetter hc, ih]
    | true =>
      rw [hletter c hc, words, words, if_pos hc, if_pos hc, ih]
      cases hwords : words rest with
      | nil => rfl
      | cons w ws =>
        cases rest with
        | nil => rfl
        | cons d rest =>
          rw [List.map_cons, consWord, consWord, joins_map hletter hother]

end

/-- A name has one identifier, whichever case it is read in. -/
theorem ofSnakeCase_eq_ofMixedCase (name : String) : ofSnakeCase name = ofMixedCase name := by
  rw [← String.toList_inj, ofSnakeCase, ofMixedCase, Text.toList_onChars, Text.toList_onChars,
    snakeChars, mixedChars, join, join, words_map]
  · intro c hc
    rw [if_neg]
    intro hunderscore
    rw [beq_iff_eq.mp hunderscore] at hc
    exact absurd hc (by decide)
  · intro c hc
    split
    · decide
    · exact hc

end SchemaTypes.Identifier
