import SchemaTypes.Proofs.Identifier.Likeness

/-!
# The shapes of words

A word of a name is a run of digits, of capitals or of small letters, the last with at most one
capital in front (`isWord_of_mem_words`), and such a text has no words but itself
(`IsWord.words_eq`). Where words touch, nothing at the seam joins them (`isChain_words`).
-/

namespace SchemaTypes.Identifier

/-! ## Classes of letters -/

theorem isUpper_iff {c : Char} : c.isUpper = true ↔ 65 ≤ c.toNat ∧ c.toNat ≤ 90 := by
  simp [Char.isUpper, UInt32.le_iff_toNat_le, ← Char.toNat_val]

theorem isLower_iff {c : Char} : c.isLower = true ↔ 97 ≤ c.toNat ∧ c.toNat ≤ 122 := by
  simp [Char.isLower, UInt32.le_iff_toNat_le, ← Char.toNat_val]

theorem isDigit_iff {c : Char} : c.isDigit = true ↔ 48 ≤ c.toNat ∧ c.toNat ≤ 57 := by
  simp [Char.isDigit, UInt32.le_iff_toNat_le, ← Char.toNat_val]

theorem isLower_eq_false_of_isUpper {c : Char} (h : c.isUpper = true) : c.isLower = false := by
  rw [isUpper_iff] at h
  rw [← Bool.not_eq_true, isLower_iff]
  omega

theorem isLower_eq_false_of_isDigit {c : Char} (h : c.isDigit = true) : c.isLower = false := by
  rw [isDigit_iff] at h
  rw [← Bool.not_eq_true, isLower_iff]
  omega

theorem isUpper_eq_false_of_isDigit {c : Char} (h : c.isDigit = true) : c.isUpper = false := by
  rw [isDigit_iff] at h
  rw [← Bool.not_eq_true, isUpper_iff]
  omega

theorem isUpper_eq_false_of_isLower {c : Char} (h : c.isLower = true) : c.isUpper = false := by
  rw [isLower_iff] at h
  rw [← Bool.not_eq_true, isUpper_iff]
  omega

theorem isDigit_eq_false_of_isUpper {c : Char} (h : c.isUpper = true) : c.isDigit = false := by
  rw [isUpper_iff] at h
  rw [← Bool.not_eq_true, isDigit_iff]
  omega

theorem isDigit_eq_false_of_isLower {c : Char} (h : c.isLower = true) : c.isDigit = false := by
  rw [isLower_iff] at h
  rw [← Bool.not_eq_true, isDigit_iff]
  omega

theorem joins_iff {c d : Char} {w : List Char} : joins c d w = true ↔
    (c.isUpper = true ∧ (d.isLower = true ∨ d.isUpper = true ∧ ∀ e ∈ w, e.isUpper = true)) ∨
      (c.isLower = true ∧ d.isLower = true) ∨ (c.isDigit = true ∧ d.isDigit = true) := by
  simp [joins, or_assoc]

/-- A capital goes with a small letter and with other capitals. -/
theorem joins_iff_of_isUpper {c d : Char} {w : List Char} (hc : c.isUpper = true) :
    joins c d w = true ↔
      d.isLower = true ∨ d.isUpper = true ∧ ∀ e ∈ w, e.isUpper = true := by
  simp [joins, hc, isLower_eq_false_of_isUpper hc, isDigit_eq_false_of_isUpper hc]

theorem joins_of_isLower {c : Char} (hc : c.isLower = true) (d : Char) (w : List Char) :
    joins c d w = d.isLower := by
  simp [joins, hc, isUpper_eq_false_of_isLower hc, isDigit_eq_false_of_isLower hc]

theorem joins_of_isDigit {c : Char} (hc : c.isDigit = true) (d : Char) (w : List Char) :
    joins c d w = d.isDigit := by
  simp [joins, hc, isUpper_eq_false_of_isDigit hc, isLower_eq_false_of_isDigit hc]

theorem isWordLetter_of_joins {c d : Char} {w : List Char} (h : joins c d w = true) :
    isWordLetter c = true ∧ isWordLetter d = true := by
  simp only [isWordLetter, Bool.or_eq_true]
  rcases joins_iff.mp h with ⟨hc, hd | ⟨hd, -⟩⟩ | ⟨hc, hd⟩ | ⟨hc, hd⟩ <;> simp [hc, hd]

/-- Behind a small letter, only a small letter goes on with the word. -/
theorem apart_of_isLower {cs ds : List Char} (hlast : ∀ c ∈ cs.getLast?, c.isLower = true)
    (hhead : ∀ d ∈ ds.head?, d.isLower = false) : Apart cs ds := by
  intro c hc d hd v _
  rw [joins_of_isLower (hlast c hc), hhead d hd]

/-! ## Shapes -/

/-- The shapes of a word. A single capital has two of them. -/
inductive IsWord : List Char → Prop where
  | digits {c : Char} {w : List Char} (hc : c.isDigit = true) (hw : ∀ d ∈ w, d.isDigit = true) :
      IsWord (c :: w)
  | capitals {c : Char} {w : List Char} (hc : c.isUpper = true)
      (hw : ∀ d ∈ w, d.isUpper = true) : IsWord (c :: w)
  | small {c : Char} {w : List Char} (hc : c.isUpper = true ∨ c.isLower = true)
      (hw : ∀ d ∈ w, d.isLower = true) : IsWord (c :: w)

theorem IsWord.ne_nil {w : List Char} (h : IsWord w) : w ≠ [] := by
  cases h <;> exact List.cons_ne_nil _ _

theorem isWord_singleton {c : Char} (h : isWordLetter c = true) : IsWord [c] := by
  rw [isWordLetter, Bool.or_eq_true, Bool.or_eq_true] at h
  rcases h with (hupper | hlower) | hdigit
  · exact .capitals hupper (List.forall_mem_nil _)
  · exact .small (.inr hlower) (List.forall_mem_nil _)
  · exact .digits hdigit (List.forall_mem_nil _)

/-- Behind a small letter all letters of a word are small. -/
theorem IsWord.forall_isLower {d : Char} {w : List Char} (h : IsWord (d :: w))
    (hd : d.isLower = true) : ∀ c ∈ d :: w, c.isLower = true := by
  cases h with
  | digits hdigit => exact absurd hd (by simp [isLower_eq_false_of_isDigit hdigit])
  | capitals hupper => exact absurd hd (by simp [isLower_eq_false_of_isUpper hupper])
  | small _ hw => exact List.forall_mem_cons.mpr ⟨hd, hw⟩

/-- A word that begins with a digit has no letters. -/
theorem IsWord.forall_isDigit {d : Char} {w : List Char} (h : IsWord (d :: w))
    (hd : d.isDigit = true) : ∀ c ∈ d :: w, c.isDigit = true := by
  cases h with
  | digits _ hw => exact List.forall_mem_cons.mpr ⟨hd, hw⟩
  | capitals hupper => exact absurd hupper (by simp [isUpper_eq_false_of_isDigit hd])
  | small hletter _ =>
    simp [isUpper_eq_false_of_isDigit hd, isLower_eq_false_of_isDigit hd] at hletter

/-- A letter that is joined to a word makes a longer word. -/
theorem IsWord.cons {c d : Char} {w : List Char} (h : IsWord (d :: w))
    (hjoins : joins c d (d :: w) = true) : IsWord (c :: d :: w) := by
  rcases joins_iff.mp hjoins with ⟨hc, hd | ⟨-, hall⟩⟩ | ⟨hc, hd⟩ | ⟨hc, hd⟩
  · exact .small (.inl hc) (h.forall_isLower hd)
  · exact .capitals hc hall
  · exact .small (.inr hc) (h.forall_isLower hd)
  · exact .digits hc (h.forall_isDigit hd)

/-! ## Words of a text -/

/-- The first word of a text that begins with a letter begins with that letter. -/
theorem head?_of_mem_head?_words {c : Char} (hc : isWordLetter c = true) {rest w : List Char}
    (hw : w ∈ (words (c :: rest)).head?) : w.head? = some c := by
  rw [words, if_pos hc] at hw
  unfold consWord at hw
  split at hw
  · cases hw
    rfl
  · split at hw
    · split at hw <;>
      · cases hw
        rfl
    · cases hw
      rfl

/-- What a letter does in front of a text: it begins a word of its own, or it is joined to the first
word. -/
theorem words_cons_cases {c : Char} (hc : isWordLetter c = true) (rest : List Char) :
    (words (c :: rest) = [c] :: words rest ∧ Apart [c] rest) ∨
      ∃ d w ws, rest.head? = some d ∧ words rest = (d :: w) :: ws ∧ joins c d (d :: w) = true ∧
        words (c :: rest) = (c :: d :: w) :: ws := by
  rw [words, if_pos hc]
  by_cases h : ∀ d ∈ rest.head?, ∀ w ∈ (words rest).head?, joins c d w = false
  · refine .inl ⟨consWord_eq_cons h, fun e he ↦ ?_⟩
    obtain rfl : c = e := Option.some.inj he
    exact h
  · push Not at h
    obtain ⟨d, hd, w, hw, hjoins⟩ := h
    rw [Bool.ne_false_iff] at hjoins
    obtain ⟨tail, rfl⟩ := List.head?_eq_some_iff.mp hd
    have hhead := head?_of_mem_head?_words (isWordLetter_of_joins hjoins).2 hw
    obtain ⟨v, rfl⟩ := List.head?_eq_some_iff.mp hhead
    obtain ⟨ws, hws⟩ := List.head?_eq_some_iff.mp hw
    exact .inr ⟨d, v, ws, rfl, hws, hjoins, by rw [hws, consWord, if_pos hjoins]⟩

theorem isWord_of_mem_words {cs w : List Char} (hw : w ∈ words cs) : IsWord w := by
  induction cs generalizing w with
  | nil => cases hw
  | cons c rest ih =>
    by_cases hc : isWordLetter c = true
    · rcases words_cons_cases hc rest with
        ⟨hwords, -⟩ | ⟨d, v, ws, -, hrest, hjoins, hwords⟩ <;> rw [hwords] at hw
      · rcases List.mem_cons.mp hw with rfl | hw
        · exact isWord_singleton hc
        · exact ih hw
      · rw [hrest] at ih
        rcases List.mem_cons.mp hw with rfl | hw
        · exact (ih List.mem_cons_self).cons hjoins
        · exact ih (List.mem_cons_of_mem _ hw)
    · rw [words_cons_of_not_isWordLetter (Bool.eq_false_iff.mpr hc)] at hw
      exact ih hw

theorem words_singleton {c : Char} (hc : isWordLetter c = true) : words [c] = [[c]] := by
  rw [words, if_pos hc]
  rfl

/-- A letter that is joined to a text that is a word makes a text that is a word. -/
theorem words_cons_of_joins {c d : Char} {w : List Char} (hw : words (d :: w) = [d :: w])
    (hjoins : joins c d (d :: w) = true) : words (c :: d :: w) = [c :: d :: w] := by
  rw [words, if_pos (isWordLetter_of_joins hjoins).1, hw, consWord, if_pos hjoins]

theorem words_of_forall_isLower {c : Char} {w : List Char}
    (hc : c.isUpper = true ∨ c.isLower = true)
    (hw : ∀ d ∈ w, d.isLower = true) : words (c :: w) = [c :: w] := by
  induction w generalizing c with
  | nil => exact words_singleton (by rcases hc with hc | hc <;> simp [isWordLetter, hc])
  | cons d w ih =>
    obtain ⟨hd, hw⟩ := List.forall_mem_cons.mp hw
    refine words_cons_of_joins (ih (.inr hd) hw) ?_
    rcases hc with hc | hc
    · exact (joins_iff_of_isUpper hc).mpr (.inl hd)
    · rw [joins_of_isLower hc, hd]

theorem words_of_forall_isUpper {c : Char} {w : List Char} (hw : ∀ d ∈ c :: w, d.isUpper = true) :
    words (c :: w) = [c :: w] := by
  induction w generalizing c with
  | nil => exact words_singleton (by simp [isWordLetter, hw c])
  | cons d w ih =>
    obtain ⟨hc, hw⟩ := List.forall_mem_cons.mp hw
    exact words_cons_of_joins (ih hw)
      ((joins_iff_of_isUpper hc).mpr (.inr ⟨hw d List.mem_cons_self, hw⟩))

theorem words_of_forall_isDigit {c : Char} {w : List Char} (hw : ∀ d ∈ c :: w, d.isDigit = true) :
    words (c :: w) = [c :: w] := by
  induction w generalizing c with
  | nil => exact words_singleton (by simp [isWordLetter, hw c])
  | cons d w ih =>
    obtain ⟨hc, hw⟩ := List.forall_mem_cons.mp hw
    refine words_cons_of_joins (ih hw) ?_
    rw [joins_of_isDigit hc, hw d List.mem_cons_self]

/-- A text with the shape of a word is its only word. -/
theorem IsWord.words_eq {w : List Char} (h : IsWord w) : words w = [w] := by
  cases h with
  | digits hc hw => exact words_of_forall_isDigit (List.forall_mem_cons.mpr ⟨hc, hw⟩)
  | capitals hc hw => exact words_of_forall_isUpper (List.forall_mem_cons.mpr ⟨hc, hw⟩)
  | small hc hw => exact words_of_forall_isLower hc hw

/-- Nothing joins the words `v` and `w` where they touch. -/
def Seam (v w : List Char) : Prop := ∀ c ∈ v.getLast?, ∀ d ∈ w.head?, joins c d w = false

/-- In a text without separators, the words touch and are nowhere joined. -/
theorem isChain_words {cs : List Char} (h : ∀ c ∈ cs, isWordLetter c = true) :
    (words cs).IsChain Seam := by
  induction cs with
  | nil => exact .nil
  | cons c rest ih =>
    obtain ⟨hc, hrest⟩ := List.forall_mem_cons.mp h
    have hchain := ih hrest
    rcases words_cons_cases hc rest with ⟨hwords, hapart⟩ | ⟨d, w, ws, -, hw, -, hwords⟩
    · rw [hwords, List.isChain_cons]
      refine ⟨fun w hw e he d hd ↦ ?_, hchain⟩
      rcases rest with _ | ⟨f, tail⟩
      · cases hw
      · have hhead := head?_of_mem_head?_words (hrest f List.mem_cons_self) hw
        exact hapart e he d (by rwa [hhead] at hd) w hw
    · rw [hw, List.isChain_cons] at hchain
      rw [hwords, List.isChain_cons]
      refine ⟨fun v hv e he ↦ hchain.1 v hv e ?_, hchain.2⟩
      rwa [List.getLast?_cons_cons] at he

end SchemaTypes.Identifier
