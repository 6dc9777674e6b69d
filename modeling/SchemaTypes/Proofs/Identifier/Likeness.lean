import SchemaTypes.Proofs.Identifier.Letters

/-!
# Names with one identifier

Different names may have one identifier: separators and foreign signs are dropped, and case is used
up in telling words apart. What an identifier does keep are the letters and digits of the name, in
order (`skeleton_ofMixedCase`), so that names which differ in those have different identifiers.

Two more things are known of an identifier whatever its name is. It begins with no small letter
(`isLower_of_mem_head?_join`). And an ending that is a word of its own behind any text, such as one
of a capital and small letters, is spelled alone, so that it can be taken off before the identifier
is made or afterwards (`ofMixedCase_append`).
-/

namespace SchemaTypes.Identifier

/-! ## What stays of a name -/

/-- The letters and digits of a name, in order and regardless of case. -/
def skeleton (name : String) : List Char := (name.toList.filter isWordLetter).map Char.toLower

/-- A word keeps its letters when it is spelled. -/
theorem map_toLower_spell (w : List Char) : (spell w).map Char.toLower = w.map Char.toLower := by
  have hcapitals : (w.map Char.toUpper).map Char.toLower = w.map Char.toLower := by
    rw [List.map_map]
    exact List.map_congr_left fun c _ ↦ Char.toLower_toUpper_eq_toLower c
  have hspecial : ∀ e ∈ specialWords, e.2.map Char.toLower = e.1.map Char.toLower := by decide
  unfold spell
  dsimp only
  split
  · next spelling hfound => rw [hspecial _ (Entries.mem_of_lookup hfound), hcapitals]
  · split
    · exact hcapitals
    · rw [List.map_append, List.map_map, List.map_map]
      have hupper : (w.take 1).map (Char.toLower ∘ Char.toUpper) = (w.take 1).map Char.toLower :=
        List.map_congr_left fun c _ ↦ Char.toLower_toUpper_eq_toLower c
      have hlower : (w.drop 1).map (Char.toLower ∘ Char.toLower) = (w.drop 1).map Char.toLower :=
        List.map_congr_left fun c _ ↦ Char.toLower_toLower_eq_toLower c
      rw [hupper, hlower, ← List.map_append, List.take_append_drop]

theorem map_toLower_join (cs : List Char) :
    (join cs).map Char.toLower = (cs.filter isWordLetter).map Char.toLower := by
  rw [join, List.map_flatMap]
  simp only [map_toLower_spell]
  rw [List.flatMap_def, ← List.map_flatten, flatten_words]

/-- An identifier has the letters and digits of its name. -/
theorem skeleton_ofMixedCase (name : String) : skeleton (ofMixedCase name) = skeleton name := by
  have hletters : (ofMixedCase name).toList.filter isWordLetter = (ofMixedCase name).toList :=
    List.filter_eq_self.mpr (lettered_ofMixedCase name)
  rw [skeleton, hletters, ofMixedCase, Text.toList_onChars, mixedChars, map_toLower_join,
    filter_stripMarks, skeleton]

theorem skeleton_ofSnakeCase (name : String) : skeleton (ofSnakeCase name) = skeleton name := by
  rw [ofSnakeCase_eq_ofMixedCase, skeleton_ofMixedCase]

/-- Only a name without letters has no identifier. -/
theorem ofSnakeCase_eq_empty_iff {name : String} : ofSnakeCase name = "" ↔ skeleton name = [] := by
  rw [ofSnakeCase_eq_ofMixedCase, ← String.length_eq_zero_iff, length_ofMixedCase, weight,
    List.countP_eq_length_filter, List.length_eq_zero_iff, skeleton, List.map_eq_nil_iff]

theorem ofMixedCase_eq_empty_iff {name : String} :
    ofMixedCase name = "" ↔ ∀ c ∈ name.toList, isWordLetter c = false := by
  rw [← String.length_eq_zero_iff, length_ofMixedCase, weight, List.countP_eq_zero]
  simp only [Bool.not_eq_true]

/-- A constant is named from its title in small letters. -/
theorem ofConstant_eq_ofSnakeCase (title : String) :
    ofConstant title = ofSnakeCase (Text.onChars Text.lower title) := by
  rw [← String.toList_inj, ofConstant, ofSnakeCase, Text.toList_onChars, Text.toList_onChars,
    Text.toList_onChars]

/-! ## How an identifier begins -/

theorem isLower_of_mem_head?_spell {w : List Char} {c : Char} (hc : c ∈ (spell w).head?) :
    c.isLower = false := by
  have hcapitals : c ∈ (w.map Char.toUpper).head? → c.isLower = false := by
    rw [List.head?_map]
    intro hmem
    obtain ⟨d, -, rfl⟩ := Option.map_eq_some_iff.mp hmem
    exact Char.isLower_toUpper_eq_false d
  have hspecial : ∀ e ∈ specialWords, e.2.head?.all (!Char.isLower ·) = true := by decide
  unfold spell at hc
  dsimp only at hc
  split at hc
  · next spelling hfound =>
    have hfirst := hspecial _ (Entries.mem_of_lookup hfound)
    rw [Option.mem_def.mp hc] at hfirst
    simpa using hfirst
  · split at hc
    · exact hcapitals hc
    · refine hcapitals ?_
      cases w with
      | nil => exact hc
      | cons d rest => exact hc

/-- What is spelled begins with a capital or a digit. -/
theorem isLower_of_mem_head?_flatMap_spell (ws : List (List Char)) :
    ∀ c ∈ (ws.flatMap spell).head?, c.isLower = false := by
  intro c hc
  rw [List.head?_flatMap] at hc
  obtain ⟨w, -, hw⟩ := List.exists_of_findSome?_eq_some hc
  exact isLower_of_mem_head?_spell hw

/-- An identifier begins with a capital or a digit. -/
theorem isLower_of_mem_head?_join {cs : List Char} {c : Char} (hc : c ∈ (join cs).head?) :
    c.isLower = false :=
  isLower_of_mem_head?_flatMap_spell (words cs) c hc

theorem isLower_of_mem_head?_ofConstant {title : String} {c : Char}
    (hc : c ∈ (ofConstant title).toList.head?) : c.isLower = false := by
  rw [ofConstant, Text.toList_onChars] at hc
  exact isLower_of_mem_head?_join hc

/-! ## Endings of their own -/

/-- Nothing in front of a text is joined to its first word. -/
def StandsApart (ds : List Char) : Prop :=
  ∀ c, ∀ d ∈ ds.head?, ∀ w ∈ (words ds).head?, joins c d w = false

/-- A text that begins with a letter of a word has a word. -/
theorem words_cons_ne_nil {c : Char} (h : isWordLetter c = true) (rest : List Char) :
    words (c :: rest) ≠ [] := by
  intro hnil
  have hflatten := flatten_words (c :: rest)
  rw [hnil, List.filter_cons_of_pos h] at hflatten
  cases hflatten

theorem consWord_eq_cons {c : Char} {rest : List Char} {ws : List (List Char)}
    (h : ∀ d ∈ rest.head?, ∀ w ∈ ws.head?, joins c d w = false) :
    consWord c rest ws = [c] :: ws := by
  rcases ws with _ | ⟨w, ws⟩
  · rfl
  rcases rest with _ | ⟨d, rest⟩
  · rfl
  rw [consWord, h d rfl w rfl, if_neg Bool.false_ne_true]

/-- Nothing at the end of `cs` is joined to the first word of `ds`. -/
def Apart (cs ds : List Char) : Prop :=
  ∀ c ∈ cs.getLast?, ∀ d ∈ ds.head?, ∀ w ∈ (words ds).head?, joins c d w = false

theorem StandsApart.apart {ds : List Char} (h : StandsApart ds) (cs : List Char) : Apart cs ds :=
  fun c _ ↦ h c

theorem Apart.of_cons {c : Char} {rest ds : List Char} (h : Apart (c :: rest) ds)
    (hne : rest ≠ []) : Apart rest ds := by
  obtain ⟨e, tail, rfl⟩ := List.exists_cons_of_ne_nil hne
  intro c hc
  exact h c (by rwa [List.getLast?_cons_cons])

/-- Where nothing is joined, the words in front and the words behind are found on their own. -/
theorem words_append_of_apart {cs ds : List Char} (h : Apart cs ds) :
    words (cs ++ ds) = words cs ++ words ds := by
  induction cs with
  | nil => rfl
  | cons c rest ih =>
    rcases rest with _ | ⟨e, tail⟩
    · have hcons : consWord c ds (words ds) = [c] :: words ds := consWord_eq_cons (h c rfl)
      rw [List.singleton_append, words, words, hcons]
      split <;> rfl
    have hcons : consWord c (e :: tail ++ ds) (words (e :: tail) ++ words ds) =
        consWord c (e :: tail) (words (e :: tail)) ++ words ds := by
      cases hrest : words (e :: tail) with
      | cons w ws =>
        simp only [List.cons_append, consWord]
        split <;> rfl
      | nil =>
        -- Right behind `c` stands a sign that is no letter.
        refine consWord_eq_cons fun d hd w _ ↦ ?_
        obtain rfl : e = d := Option.some.inj hd
        refine joins_of_not_isWordLetter (Bool.eq_false_iff.mpr fun hletter ↦ ?_) c w
        exact words_cons_ne_nil hletter tail hrest
    rw [List.cons_append, words, words, ih (h.of_cons (List.cons_ne_nil e tail)), hcons]
    split <;> rfl

/-- The words in front of a text that stands apart stay as they are. -/
theorem words_append {ds : List Char} (h : StandsApart ds) (cs : List Char) :
    words (cs ++ ds) = words cs ++ words ds :=
  words_append_of_apart (h.apart cs)

/-- An ending that stands apart is spelled alone. -/
theorem ofMixedCase_append {ending : String} (h : StandsApart (stripMarks ending.toList))
    (name : String) : ofMixedCase (name ++ ending) = ofMixedCase name ++ ofMixedCase ending := by
  rw [← String.toList_inj, String.toList_append, ofMixedCase, ofMixedCase, ofMixedCase,
    Text.toList_onChars, Text.toList_onChars, Text.toList_onChars, String.toList_append,
    mixedChars, stripMarks, List.filter_append, ← stripMarks, ← stripMarks, join, words_append h,
    List.flatMap_append]
  rfl

end SchemaTypes.Identifier
