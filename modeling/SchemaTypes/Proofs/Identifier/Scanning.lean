import SchemaTypes.Proofs.Identifier.Splitting

/-!
# Reading a name from the front

The words of a name are found from its end, one letter at a time. A reader who goes from the front
finds the same words (`scan_eq_words`). At each place it takes the longest run of capitals behind
which no small letter follows, giving capitals back as long as one does; else a run of small
letters, with a capital in front if there is one; else a run of digits. Where no word begins, it
passes over one sign.

No word goes on across a separator, whatever is in front of it and behind it. So an underscore takes
an identifier apart (`identifier_of_separated`).
-/

namespace SchemaTypes.Identifier

/-! ## Words at the front -/

/-- The longest beginning of a text that lies in a class of signs and leaves behind what is
required, together with what is left. Longer beginnings are tried first. -/
def longest? (inClass : Char → Bool) (required : List Char → Bool) :
    List Char → Option (List Char × List Char)
  | [] => none
  | c :: rest =>
    if inClass c then
      match longest? inClass required rest with
      | some (w, behind) => some (c :: w, behind)
      | none => if required rest then some ([c], rest) else none
    else none

/-- Whether a text begins with a small letter. -/
def beginsSmall (cs : List Char) : Bool := cs.head?.any Char.isLower

/-- A run of capitals at the front behind which no small letter follows. -/
def capitals? : List Char → Option (List Char × List Char) :=
  longest? Char.isUpper fun behind ↦ !beginsSmall behind

/-- A run of small letters at the front. -/
def small? : List Char → Option (List Char × List Char) := longest? Char.isLower fun _ ↦ true

/-- A capital at the front with a run of small letters. -/
def capitalised? : List Char → Option (List Char × List Char)
  | [] => none
  | c :: rest => if c.isUpper then (small? rest).map fun (w, behind) ↦ (c :: w, behind) else none

/-- A run of digits at the front. -/
def digits? : List Char → Option (List Char × List Char) := longest? Char.isDigit fun _ ↦ true

/-- The word at the front of a text and what is behind it. -/
def firstWord? (cs : List Char) : Option (List Char × List Char) :=
  capitals? cs <|> capitalised? cs <|> small? cs <|> digits? cs

section

variable {inClass : Char → Bool} {required : List Char → Bool}

theorem of_longest?_eq_some {cs w rest : List Char}
    (h : longest? inClass required cs = some (w, rest)) :
    cs = w ++ rest ∧ w ≠ [] ∧ (∀ c ∈ w, inClass c = true) ∧ required rest = true ∧
      longest? inClass required rest = none := by
  induction cs generalizing w with
  | nil => cases h
  | cons c cs ih =>
    rw [longest?] at h
    split at h
    · next hc =>
      split at h
      · next v behind hfound =>
        cases h
        obtain ⟨rfl, -, hclass, hrequired, hlongest⟩ := ih hfound
        exact ⟨rfl, List.cons_ne_nil c v, List.forall_mem_cons.mpr ⟨hc, hclass⟩, hrequired,
          hlongest⟩
      · next hnone =>
        split at h
        · next hrequired =>
          cases h
          exact ⟨rfl, List.cons_ne_nil c [], List.forall_mem_singleton.mpr hc, hrequired, hnone⟩
        · cases h
    · cases h

/-- Nothing is found only if the text begins outside the class or goes on differently. -/
theorem of_longest?_eq_none {c : Char} {rest : List Char}
    (h : longest? inClass required (c :: rest) = none) (hc : inClass c = true) :
    required rest = false := by
  rw [longest?, if_pos hc] at h
  split at h
  · cases h
  · split at h
    · cases h
    · next hrequired => exact Bool.eq_false_iff.mpr hrequired

end

/-- Behind a run that may end anywhere, no sign of its class follows. -/
theorem not_inClass_of_longest?_eq_none {inClass : Char → Bool} {rest : List Char}
    (h : longest? inClass (fun _ ↦ true) rest = none) : ∀ d ∈ rest.head?, inClass d = false := by
  intro d hd
  obtain ⟨tail, rfl⟩ := List.head?_eq_some_iff.mp hd
  by_contra hclass
  exact absurd (of_longest?_eq_none h (Bool.ne_false_iff.mp hclass)) (by simp)

/-- The text begins with the word `w`, and nothing of what is behind it goes on with that word. -/
structure Begins (cs w rest : List Char) : Prop where
  eq_append : cs = w ++ rest
  isWord : IsWord w
  apart : Apart w rest

theorem Begins.words_eq {cs w rest : List Char} (h : Begins cs w rest) :
    words cs = w :: words rest := by
  rw [h.eq_append, words_append_of_apart h.apart, h.isWord.words_eq, List.singleton_append]

/-- The first word of a capital and a small letter has both. -/
theorem mem_of_mem_head?_words {d e : Char} (hd : d.isUpper = true) (he : e.isLower = true)
    {tail v : List Char} (hv : v ∈ (words (d :: e :: tail)).head?) : e ∈ v := by
  have hdletter : isWordLetter d = true := by simp [isWordLetter, hd]
  have heletter : isWordLetter e = true := by simp [isWordLetter, he]
  rcases words_cons_cases hdletter (e :: tail) with ⟨-, hapart⟩ | ⟨f, w, ws, hf, -, -, hwords⟩
  · obtain ⟨w, ws, hw⟩ := List.exists_cons_of_ne_nil (words_cons_ne_nil heletter tail)
    have hjoins : joins d e w = true := (joins_iff_of_isUpper hd).mpr (.inl he)
    rw [hapart d rfl e rfl w (by rw [hw]; rfl)] at hjoins
    cases hjoins
  · obtain rfl : e = f := Option.some.inj hf
    rw [hwords] at hv
    obtain rfl : d :: e :: w = v := Option.some.inj hv
    simp

theorem begins_of_capitals? {cs w rest : List Char} (h : capitals? cs = some (w, rest)) :
    Begins cs w rest := by
  obtain ⟨rfl, hne, hclass, hrequired, hlongest⟩ := of_longest?_eq_some h
  refine ⟨rfl, ?_, fun c hc d hd v hv ↦ ?_⟩
  · obtain ⟨c, w, rfl⟩ := List.exists_cons_of_ne_nil hne
    obtain ⟨hc, hw⟩ := List.forall_mem_cons.mp hclass
    exact .capitals hc hw
  have hc : c.isUpper = true := hclass c (List.mem_of_getLast? hc)
  obtain ⟨tail, rfl⟩ := List.head?_eq_some_iff.mp hd
  by_contra hjoins
  rcases (joins_iff_of_isUpper hc).mp (Bool.ne_false_iff.mp hjoins) with hlower | ⟨hupper, hall⟩
  · simp [beginsSmall, hlower] at hrequired
  · -- A capital that was given back has a small letter behind it, and forms a word with that.
    have hsmall := of_longest?_eq_none hlongest hupper
    rw [Bool.not_eq_false', beginsSmall, Option.any_eq_true] at hsmall
    obtain ⟨e, he, hlower⟩ := hsmall
    obtain ⟨tail, rfl⟩ := List.head?_eq_some_iff.mp he
    have hupper := hall e (mem_of_mem_head?_words hupper hlower hv)
    rw [isLower_eq_false_of_isUpper hupper] at hlower
    cases hlower

theorem begins_of_small? {cs w rest : List Char} (h : small? cs = some (w, rest)) :
    Begins cs w rest := by
  obtain ⟨rfl, hne, hclass, -, hlongest⟩ := of_longest?_eq_some h
  refine ⟨rfl, ?_, apart_of_isLower (fun c hc ↦ hclass c (List.mem_of_getLast? hc))
    (not_inClass_of_longest?_eq_none hlongest)⟩
  obtain ⟨c, w, rfl⟩ := List.exists_cons_of_ne_nil hne
  obtain ⟨hc, hw⟩ := List.forall_mem_cons.mp hclass
  exact .small (.inr hc) hw

theorem begins_of_capitalised? {cs w rest : List Char} (h : capitalised? cs = some (w, rest)) :
    Begins cs w rest := by
  rcases cs with _ | ⟨c, cs⟩
  · cases h
  rw [capitalised?] at h
  split at h
  · next hc =>
    obtain ⟨⟨v, behind⟩, hfound, hpair⟩ := Option.map_eq_some_iff.mp h
    cases hpair
    obtain ⟨rfl, hne, hclass, -, hlongest⟩ := of_longest?_eq_some hfound
    refine ⟨rfl, .small (.inl hc) hclass, apart_of_isLower (fun d hd ↦ ?_)
      (not_inClass_of_longest?_eq_none hlongest)⟩
    obtain ⟨e, v, rfl⟩ := List.exists_cons_of_ne_nil hne
    rw [List.getLast?_cons_cons] at hd
    exact hclass d (List.mem_of_getLast? hd)
  · cases h

theorem begins_of_digits? {cs w rest : List Char} (h : digits? cs = some (w, rest)) :
    Begins cs w rest := by
  obtain ⟨rfl, hne, hclass, -, hlongest⟩ := of_longest?_eq_some h
  refine ⟨rfl, ?_, fun c hc d hd v _ ↦ ?_⟩
  · obtain ⟨c, w, rfl⟩ := List.exists_cons_of_ne_nil hne
    obtain ⟨hc, hw⟩ := List.forall_mem_cons.mp hclass
    exact .digits hc hw
  rw [joins_of_isDigit (hclass c (List.mem_of_getLast? hc))]
  exact not_inClass_of_longest?_eq_none hlongest d hd

theorem begins_of_firstWord? {cs w rest : List Char} (h : firstWord? cs = some (w, rest)) :
    Begins cs w rest := by
  simp only [firstWord?, Option.orElse_eq_orElse, Option.orElse_eq_or, Option.or_eq_some_iff] at h
  rcases h with h | ⟨-, h | ⟨-, h | ⟨-, h⟩⟩⟩
  · exact begins_of_capitals? h
  · exact begins_of_capitalised? h
  · exact begins_of_small? h
  · exact begins_of_digits? h

/-- Where no word begins, there is no letter of a word. -/
theorem isWordLetter_eq_false_of_firstWord? {c : Char} {rest : List Char}
    (h : firstWord? (c :: rest) = none) : isWordLetter c = false := by
  simp only [firstWord?, Option.orElse_eq_orElse, Option.orElse_eq_or, Option.or_eq_none_iff] at h
  obtain ⟨hcapitals, hcapitalised, hsmall, hdigits⟩ := h
  rw [isWordLetter, Bool.or_eq_false_iff, Bool.or_eq_false_iff]
  refine ⟨⟨?_, not_inClass_of_longest?_eq_none hsmall c rfl⟩,
    not_inClass_of_longest?_eq_none hdigits c rfl⟩
  by_contra hc
  rw [Bool.not_eq_false] at hc
  -- What hinders a run of capitals is the small letter that makes a word with the capital.
  have hbehind := of_longest?_eq_none hcapitals hc
  rw [Bool.not_eq_false', beginsSmall, Option.any_eq_true] at hbehind
  obtain ⟨e, he, hlower⟩ := hbehind
  rw [capitalised?, if_pos hc, Option.map_eq_none_iff] at hcapitalised
  rw [not_inClass_of_longest?_eq_none hcapitalised e he] at hlower
  cases hlower

/-! ## The scan -/

theorem Begins.length_lt {cs w rest : List Char} (h : Begins cs w rest) :
    rest.length < cs.length := by
  rw [h.eq_append, List.length_append]
  exact Nat.lt_add_of_pos_left (List.length_pos_iff.mpr h.isWord.ne_nil)

/-- The words of a text, read from the front. -/
def scan (cs : List Char) : List (List Char) :=
  match _hword : firstWord? cs with
  | some (w, rest) => w :: scan rest
  | none =>
    match cs with
    | [] => []
    | _ :: rest => scan rest
termination_by cs.length
decreasing_by
  · exact (begins_of_firstWord? _hword).length_lt
  · exact Nat.lt_succ_self _

/-- **Both ways of reading find the same words.** -/
theorem scan_eq_words (cs : List Char) : scan cs = words cs := by
  fun_induction scan cs with
  | case1 cs w rest h ih => rw [ih, (begins_of_firstWord? h).words_eq]
  | case2 => rfl
  | case3 c rest h ih =>
    rw [ih, words_cons_of_not_isWordLetter (isWordLetter_eq_false_of_firstWord? h)]

example : scan "HTTPServer2fa".toList =
    ["HTTP".toList, "Server".toList, "2".toList, "fa".toList] := by
  rw [scan_eq_words]
  decide +kernel

/-! ## Separators -/

theorem ofMixedCase_underscore_append (name : String) :
    ofMixedCase ("_" ++ name) = ofMixedCase name := by
  have hunderscore : isWordLetter '_' = false := by decide
  have hstrip : stripMarks ("_" ++ name).toList = '_' :: stripMarks name.toList := by
    rw [String.toList_append]
    rfl
  rw [← String.toList_inj, ofMixedCase, ofMixedCase, Text.toList_onChars, Text.toList_onChars,
    mixedChars, hstrip, join, words_cons_of_not_isWordLetter hunderscore]
  rfl

/-- An underscore ends the word in front of it, and nothing of it stays. -/
theorem ofMixedCase_append_underscore (a b : String) :
    ofMixedCase (a ++ "_" ++ b) = ofMixedCase a ++ ofMixedCase b := by
  have hunderscore : isWordLetter '_' = false := by decide
  have hapart : StandsApart (stripMarks ("_" ++ b).toList) := by
    intro c d hd w _
    rw [String.toList_append] at hd
    obtain rfl : '_' = d := Option.some.inj hd
    exact joins_of_not_isWordLetter hunderscore c w
  rw [String.append_assoc, ofMixedCase_append hapart, ofMixedCase_underscore_append]

/-- **Underscores take identifiers apart.** A name has one identifier, whichever case it is read in,
and the identifier of two names with an underscore between them is put together of the identifiers
of both, whatever meets at the underscore. -/
theorem identifier_of_separated :
    (∀ text : String, ofSnakeCase text = ofMixedCase text) ∧
      ∀ a b : String, ofSnakeCase (a ++ "_" ++ b) = ofSnakeCase a ++ ofSnakeCase b := by
  refine ⟨ofSnakeCase_eq_ofMixedCase, fun a b ↦ ?_⟩
  simp only [ofSnakeCase_eq_ofMixedCase]
  exact ofMixedCase_append_underscore a b

end SchemaTypes.Identifier
