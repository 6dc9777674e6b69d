import SchemaTypes.Path
import SchemaTypes.Proofs.Identifier.Spelling

/-!
# Identifiers that are made into identifiers again

An identifier that is read as a name has words of its own, which are not those it was made of: words
in capitals that touch are read as one word, and that word is spelled small unless it is curated. So
an identifier stays as it is exactly if each of its runs of capitals is a single letter or an
initialism (`ofMixedCase_again`). It does if no two words in capitals touched in the name
(`ofMixedCase_ofMixedCase_of_isChain`), and from the second time on it always does.
-/

namespace SchemaTypes.Identifier

/-! ## The shapes of spelled words -/

theorem map_toLower_eq_self {w : List Char} (h : ∀ c ∈ w, c.isUpper = false) :
    w.map Char.toLower = w := by
  refine (List.map_congr_left fun c hc ↦ ?_).trans (List.map_id w)
  exact Char.toLower_eq_of_not_isUpper (by simp [h c hc])

theorem spell_of_forall_isDigit {w : List Char} (h : ∀ c ∈ w, c.isDigit = true) : spell w = w := by
  have hspecial : ∀ e ∈ specialWords, e.1.all Char.isDigit = false := by decide
  have hcapitals : w.map Char.toUpper = w :=
    map_toUpper_eq_self fun c hc ↦ isLower_eq_false_of_isDigit (h c hc)
  rcases spell_eq_cases w with ⟨e, he, hkey, -⟩ | ⟨-, hspell⟩ | ⟨-, hspell⟩
  · have hdigits := hspecial e he
    rw [hkey, hcapitals, List.all_eq_true.mpr h] at hdigits
    cases hdigits
  · rw [hspell, hcapitals]
  · have hsmall : (w.drop 1).map Char.toLower = w.drop 1 := map_toLower_eq_self fun c hc ↦
      isUpper_eq_false_of_isDigit (h c (List.mem_of_mem_drop hc))
    rw [hspell, capitalise, hsmall, List.map_take, hcapitals, List.take_append_drop]

/-- A word in capitals stays as it is only if it is a single letter or an initialism. -/
theorem spell_eq_self_iff_of_capitals {w : List Char} (hne : w ≠ [])
    (h : ∀ c ∈ w, c.isUpper = true) : spell w = w ↔ w.length = 1 ∨ w ∈ initialisms := by
  have hspecial : ∀ e ∈ specialWords,
      e.2 ≠ e.1 ∧ e.1.length ≠ 1 ∧ e.1 ∉ initialisms := by decide
  have hcapitals : w.map Char.toUpper = w :=
    map_toUpper_eq_self fun c hc ↦ isLower_eq_false_of_isUpper (h c hc)
  rcases spell_eq_cases w with ⟨e, he, hkey, hspell⟩ | ⟨hmem, hspell⟩ | ⟨hmem, hspell⟩
  · rw [hcapitals] at hkey
    rw [hspell, ← hkey]
    obtain ⟨hspelling, hlength, hmem⟩ := hspecial e he
    exact iff_of_false hspelling (not_or.mpr ⟨hlength, hmem⟩)
  · rw [hcapitals] at hmem hspell
    exact iff_of_true hspell (.inr hmem)
  · rw [hcapitals] at hmem
    obtain ⟨c, v, rfl⟩ := List.exists_cons_of_ne_nil hne
    obtain ⟨hc, hv⟩ := List.forall_mem_cons.mp h
    have hcons : capitalise (c :: v) = c :: v.map Char.toLower := by
      have hfirst := (List.cons_eq_cons.mp hcapitals).1
      rw [capitalise, List.take_succ_cons, List.take_zero, List.map_singleton, hfirst]
      rfl
    rw [hspell, hcons, List.cons_inj_right, or_iff_left hmem, List.length_cons, Nat.add_eq_right,
      List.length_eq_zero_iff]
    refine ⟨fun hsmall ↦ List.eq_nil_iff_forall_not_mem.mpr fun d hd ↦ ?_, fun hnil ↦ ?_⟩
    · have hupper := hv d hd
      rw [← hsmall] at hd
      obtain ⟨e, -, rfl⟩ := List.mem_map.mp hd
      rw [Char.isUpper_toLower_eq_false] at hupper
      cases hupper
    · rw [hnil]
      rfl

/-- What is spelled in mixed case ends in a small letter, and its words are settled. -/
structure MixedCase (s : List Char) : Prop where
  isLower_of_mem_getLast? : ∀ c ∈ s.getLast?, c.isLower = true
  spell_eq : ∀ u ∈ words s, spell u = u

theorem mixedCase_of_mem_specialWords {e : List Char × List Char} (he : e ∈ specialWords)
    (hcapitals : ∀ c ∈ e.1, c.isUpper = true) : MixedCase e.2 := by
  have hall : (specialWords.all fun e ↦ !e.1.all Char.isUpper ||
      e.2.getLast?.all Char.isLower && (words e.2).all fun u ↦ spell u == u) = true := by decide
  have hentry := List.all_eq_true.mp hall e he
  rw [List.all_eq_true.mpr hcapitals, Bool.not_true, Bool.false_or, Bool.and_eq_true,
    Option.all_eq_true, List.all_eq_true] at hentry
  exact ⟨hentry.1, fun u hu ↦ beq_iff_eq.mp (hentry.2 u hu)⟩

theorem IsWord.isDigit_or_isAlpha {w : List Char} (h : IsWord w) :
    (∀ c ∈ w, c.isDigit = true) ∨ ∀ c ∈ w, c.isAlpha = true := by
  cases h with
  | digits hc hw => exact .inl (List.forall_mem_cons.mpr ⟨hc, hw⟩)
  | capitals hc hw =>
    refine .inr (List.forall_mem_cons.mpr ⟨?_, fun d hd ↦ ?_⟩) <;> simp [Char.isAlpha, *]
  | small hc hw =>
    refine .inr (List.forall_mem_cons.mpr ⟨?_, fun d hd ↦ ?_⟩) <;> simp [Char.isAlpha, *]

theorem spell_cases {w : List Char} (h : IsWord w) : (∀ c ∈ spell w, c.isDigit = true) ∨
    (∀ c ∈ spell w, c.isUpper = true) ∨ MixedCase (spell w) := by
  rcases h.isDigit_or_isAlpha with hdigit | halpha
  · rw [spell_of_forall_isDigit hdigit]
    exact .inl hdigit
  have hupper : ∀ c ∈ w.map Char.toUpper, c.isUpper = true := List.forall_mem_map.mpr fun c hc ↦ by
    rw [Char.isUpper_toUpper_eq_isAlpha, halpha c hc]
  rcases spell_eq_cases w with ⟨e, he, hkey, hspell⟩ | ⟨-, hspell⟩ | ⟨-, hspell⟩
  · rw [hspell]
    exact .inr (.inr (mixedCase_of_mem_specialWords he (by rwa [hkey])))
  · rw [hspell]
    exact .inr (.inl hupper)
  · obtain ⟨c, v, rfl⟩ := List.exists_cons_of_ne_nil h.ne_nil
    have hc : c.toUpper.isUpper = true := hupper _ List.mem_cons_self
    have hv : ∀ d ∈ v.map Char.toLower, d.isLower = true := List.forall_mem_map.mpr fun d hd ↦ by
      rw [Char.isLower_toLower_eq_isAlpha, halpha d (List.mem_cons_of_mem c hd)]
    have hcons : spell (c :: v) = c.toUpper :: v.map Char.toLower := hspell
    rcases v with _ | ⟨d, v⟩
    · rw [hcons]
      exact .inr (.inl (List.forall_mem_singleton.mpr hc))
    · refine .inr (.inr ⟨fun e he ↦ ?_, fun u hu ↦ ?_⟩)
      · rw [hcons, List.map_cons, List.getLast?_cons_cons] at he
        exact hv e (List.mem_of_getLast? he)
      · rw [hcons, words_of_forall_isLower (.inl hc) hv, ← hcons, List.mem_singleton] at hu
        rw [hu, spell_spell]

/-! ## The words of an identifier -/

/-- Letters of one class in front of a text add words of that class only, if what they are joined to
lies in the class as well. -/
theorem mem_words_append_cases {inClass : Char → Bool} {s t : List Char}
    (hletter : ∀ c, inClass c = true → isWordLetter c = true)
    (hjoins : ∀ c d w, inClass c = true → d ∈ t.head? ∨ inClass d = true → IsWord (d :: w) →
      joins c d (d :: w) = true → ∀ e ∈ d :: w, inClass e = true)
    (hs : ∀ c ∈ s, inClass c = true) {u : List Char} (hu : u ∈ words (s ++ t)) :
    (∀ c ∈ u, inClass c = true) ∨ u ∈ words t := by
  induction s generalizing u with
  | nil => exact .inr hu
  | cons c s ih =>
    obtain ⟨hc, hs⟩ := List.forall_mem_cons.mp hs
    rw [List.cons_append] at hu
    rcases words_cons_cases (hletter c hc) (s ++ t) with
      ⟨hwords, -⟩ | ⟨d, w, ws, hd, hw, hjoin, hwords⟩ <;> rw [hwords] at hu
    · rcases List.mem_cons.mp hu with rfl | hu
      · exact .inl (List.forall_mem_singleton.mpr hc)
      · exact ih hs hu
    · have hmem : d :: w ∈ words (s ++ t) := by simp [hw]
      rcases List.mem_cons.mp hu with rfl | hu
      · have hhead : d ∈ t.head? ∨ inClass d = true := by
          rcases s with _ | ⟨e, s⟩
          · exact .inl hd
          · obtain rfl : e = d := Option.some.inj hd
            exact .inr (hs e List.mem_cons_self)
        exact .inl (List.forall_mem_cons.mpr
          ⟨hc, hjoins c d w hc hhead (isWord_of_mem_words hmem) hjoin⟩)
      · exact ih hs (by simp [hw, hu])

theorem mem_words_digits_append {s t : List Char} (hs : ∀ c ∈ s, c.isDigit = true)
    {u : List Char} (hu : u ∈ words (s ++ t)) : (∀ c ∈ u, c.isDigit = true) ∨ u ∈ words t := by
  refine mem_words_append_cases (fun c hc ↦ by simp [isWordLetter, hc])
    (fun c d w hc _ hword hjoins ↦ ?_) hs hu
  rw [joins_of_isDigit hc] at hjoins
  exact hword.forall_isDigit hjoins

theorem mem_words_capitals_append {s t : List Char} (hs : ∀ c ∈ s, c.isUpper = true)
    (ht : ∀ d ∈ t.head?, d.isLower = false) {u : List Char} (hu : u ∈ words (s ++ t)) :
    (∀ c ∈ u, c.isUpper = true) ∨ u ∈ words t := by
  refine mem_words_append_cases (fun c hc ↦ by simp [isWordLetter, hc])
    (fun c d w hc hd _ hjoins ↦ ?_) hs hu
  rcases (joins_iff_of_isUpper hc).mp hjoins with hlower | ⟨-, hall⟩
  · rcases hd with hd | hd
    · simp [ht d hd] at hlower
    · simp [isLower_eq_false_of_isUpper hd] at hlower
  · exact hall

theorem MixedCase.apart {s t : List Char} (h : MixedCase s)
    (ht : ∀ d ∈ t.head?, d.isLower = false) : Apart s t :=
  apart_of_isLower h.isLower_of_mem_getLast? ht

/-- A spelled word in front of others adds settled words, unless it is in capitals. -/
theorem mem_words_spell_append {w u : List Char} {ws : List (List Char)} (hw : IsWord w)
    (hu : u ∈ words (spell w ++ ws.flatMap spell)) :
    (∀ c ∈ spell w, c.isUpper = true) ∨ spell u = u ∨ u ∈ words (ws.flatMap spell) := by
  rcases spell_cases hw with hdigits | hcapitals | hmixed
  · exact .inr ((mem_words_digits_append hdigits hu).imp_left spell_of_forall_isDigit)
  · exact .inl hcapitals
  · rw [words_append_of_apart (hmixed.apart (isLower_of_mem_head?_flatMap_spell ws)),
      List.mem_append] at hu
    exact .inr (hu.imp_left (hmixed.spell_eq u))

/-- A word of an identifier is settled or written in capitals. -/
theorem settled_or_capitals {ws : List (List Char)} (hws : ∀ w ∈ ws, IsWord w) {u : List Char}
    (hu : u ∈ words (ws.flatMap spell)) : spell u = u ∨ ∀ c ∈ u, c.isUpper = true := by
  induction ws generalizing u with
  | nil => cases hu
  | cons w ws ih =>
    obtain ⟨hw, hws⟩ := List.forall_mem_cons.mp hws
    rw [List.flatMap_cons] at hu
    rcases mem_words_spell_append hw hu with hcapitals | hsettled | hmem
    · rcases mem_words_capitals_append hcapitals (isLower_of_mem_head?_flatMap_spell ws) hu with
        hu | hu
      · exact .inr hu
      · exact ih hws hu
    · exact .inl hsettled
    · exact ih hws hmem

/-- Spelled next to each other, the two words run together: the first is spelled in capitals, and
what is read first in the second is in capitals too. -/
def RunTogether (v w : List Char) : Prop :=
  (∀ c ∈ spell v, c.isUpper = true) ∧ ∃ u ∈ (words (spell w)).head?, ∀ c ∈ u, c.isUpper = true

theorem spell_ne_nil {w : List Char} (h : IsWord w) : spell w ≠ [] := by
  rw [← List.length_pos_iff, length_spell]
  exact List.length_pos_iff.mpr h.ne_nil

/-- Capitals stand apart from what does not run together with them. -/
theorem apart_of_not_runTogether {v : List Char} (hv : ∀ c ∈ spell v, c.isUpper = true)
    {ws : List (List Char)} (hws : ∀ w ∈ ws, IsWord w)
    (h : ∀ w ∈ ws.head?, ¬ RunTogether v w) : Apart (spell v) (ws.flatMap spell) := by
  intro c hc d hd u hu
  have hc : c.isUpper = true := hv c (List.mem_of_getLast? hc)
  by_contra hjoins
  rcases (joins_iff_of_isUpper hc).mp (Bool.ne_false_iff.mp hjoins) with
    hlower | ⟨hupper, hall⟩
  · simp [isLower_of_mem_head?_flatMap_spell ws d hd] at hlower
  · rcases ws with _ | ⟨w, ws⟩
    · cases hd
    obtain ⟨hw, -⟩ := List.forall_mem_cons.mp hws
    refine h w rfl ⟨hv, ?_⟩
    rw [List.flatMap_cons] at hd hu
    obtain ⟨f, s, hs⟩ := List.exists_cons_of_ne_nil (spell_ne_nil hw)
    obtain rfl : f = d := by
      rw [hs] at hd
      exact Option.some.inj hd
    rcases spell_cases hw with hdigits | hcapitals | hmixed
    · have hdigit := hdigits f (by simp [hs])
      simp [isUpper_eq_false_of_isDigit hdigit] at hupper
    · rw [hs] at hcapitals ⊢
      exact ⟨f :: s, by rw [words_of_forall_isUpper hcapitals]; rfl, hcapitals⟩
    · have hletter : isWordLetter f = true := by simp [isWordLetter, hupper]
      obtain ⟨x, xs, hx⟩ := List.exists_cons_of_ne_nil (words_cons_ne_nil hletter s)
      have hapart := hmixed.apart (isLower_of_mem_head?_flatMap_spell ws)
      rw [words_append_of_apart hapart, hs, hx] at hu
      obtain rfl : x = u := Option.some.inj hu
      exact ⟨x, by rw [hs, hx]; rfl, hall⟩

/-- Where no two neighbours run together, all words of an identifier are settled. -/
theorem spell_eq_self_of_isChain {ws : List (List Char)} (hws : ∀ w ∈ ws, IsWord w)
    (hchain : ws.IsChain fun v w ↦ ¬ RunTogether v w) {u : List Char}
    (hu : u ∈ words (ws.flatMap spell)) : spell u = u := by
  induction ws generalizing u with
  | nil => cases hu
  | cons w ws ih =>
    obtain ⟨hw, hws⟩ := List.forall_mem_cons.mp hws
    obtain ⟨hfirst, hchain⟩ := List.isChain_cons.mp hchain
    rw [List.flatMap_cons] at hu
    rcases mem_words_spell_append hw hu with hcapitals | hsettled | hmem
    · rw [words_append_of_apart (apart_of_not_runTogether hcapitals hws hfirst),
        List.mem_append] at hu
      rcases hu with hu | hu
      · obtain ⟨c, s, hs⟩ := List.exists_cons_of_ne_nil (spell_ne_nil hw)
        rw [hs] at hcapitals
        rw [hs, words_of_forall_isUpper hcapitals, ← hs, List.mem_singleton] at hu
        rw [hu, spell_spell]
      · exact ih hws hchain hu
    · exact hsettled
    · exact ih hws hchain hmem

/-! ## Spelling all words again -/

theorem flatMap_spell_eq_flatten_iff (ws : List (List Char)) :
    ws.flatMap spell = ws.flatten ↔ ∀ w ∈ ws, spell w = w := by
  induction ws with
  | nil => simp
  | cons w ws ih =>
    rw [List.flatMap_cons, List.flatten_cons, List.forall_mem_cons, ← ih]
    refine ⟨fun h ↦ List.append_inj h (length_spell w), ?_⟩
    rintro ⟨hw, hws⟩
    rw [hw, hws]

/-- A text of letters stays as it is exactly if all its words are settled. -/
theorem join_eq_self_iff {cs : List Char} (h : ∀ c ∈ cs, isWordLetter c = true) :
    join cs = cs ↔ ∀ w ∈ words cs, spell w = w := by
  rw [← flatMap_spell_eq_flatten_iff, flatten_words, List.filter_eq_self.mpr h]
  rfl

theorem settled_or_capitals_of_mem_words_join {cs u : List Char} (hu : u ∈ words (join cs)) :
    spell u = u ∨ ∀ c ∈ u, c.isUpper = true :=
  settled_or_capitals (fun _ hw ↦ isWord_of_mem_words hw) hu

/-- A word of an identifier is in capitals already if it is spelled in capitals. -/
theorem forall_isUpper_of_spell {cs u : List Char} (hu : u ∈ words (join cs))
    (h : ∀ c ∈ spell u, c.isUpper = true) : ∀ c ∈ u, c.isUpper = true := by
  rcases settled_or_capitals_of_mem_words_join hu with hsettled | hcapitals
  · rwa [hsettled] at h
  · exact hcapitals

/-- The words of an identifier do not run together when they are spelled. -/
theorem isChain_words_join (cs : List Char) :
    (words (join cs)).IsChain fun v w ↦ ¬ RunTogether v w := by
  refine List.IsChain.imp_of_mem_imp (fun v w hv hw hseam hrun ↦ ?_)
    (isChain_words fun c hc ↦ isWordLetter_of_mem_join hc)
  obtain ⟨hcapitals, u, hu, hall⟩ := hrun
  have hvcapitals := forall_isUpper_of_spell hv hcapitals
  have hwcapitals : ∀ c ∈ w, c.isUpper = true := by
    rcases settled_or_capitals_of_mem_words_join hw with hsettled | hwcapitals
    · rw [hsettled, (isWord_of_mem_words hw).words_eq] at hu
      obtain rfl : w = u := Option.some.inj hu
      exact hall
    · exact hwcapitals
  -- Two words in capitals would have been read as one.
  obtain ⟨d, w, rfl⟩ := List.exists_cons_of_ne_nil (isWord_of_mem_words hw).ne_nil
  have hlast := List.getLast?_eq_some_getLast (isWord_of_mem_words hv).ne_nil
  have hjoins : joins (v.getLast (isWord_of_mem_words hv).ne_nil) d (d :: w) = true :=
    (joins_iff_of_isUpper (hvcapitals _ (List.getLast_mem _))).mpr
      (.inr ⟨hwcapitals d List.mem_cons_self, hwcapitals⟩)
  rw [hseam _ hlast d rfl] at hjoins
  cases hjoins

/-- Where no two neighbouring words run together, to spell all words again changes nothing. -/
theorem join_join_of_isChain {cs : List Char}
    (h : (words cs).IsChain fun v w ↦ ¬ RunTogether v w) : join (join cs) = join cs :=
  (join_eq_self_iff fun _ hc ↦ isWordLetter_of_mem_join hc).mpr fun _ hu ↦
    spell_eq_self_of_isChain (fun _ hw ↦ isWord_of_mem_words hw) h hu

/-- Only words in capitals can be unsettled. -/
theorem join_join_iff (cs : List Char) : join (join cs) = join cs ↔
    ∀ w ∈ words (join cs), (∀ c ∈ w, c.isUpper = true) → w.length = 1 ∨ w ∈ initialisms := by
  rw [join_eq_self_iff fun c hc ↦ isWordLetter_of_mem_join hc]
  refine forall₂_congr fun w hw ↦ ?_
  have hne := (isWord_of_mem_words hw).ne_nil
  constructor
  · intro hsettled hcapitals
    exact (spell_eq_self_iff_of_capitals hne hcapitals).mp hsettled
  · intro h
    rcases settled_or_capitals_of_mem_words_join hw with hsettled | hcapitals
    · exact hsettled
    · exact (spell_eq_self_iff_of_capitals hne hcapitals).mpr (h hcapitals)

/-! ## Identifiers -/

theorem toList_ofMixedCase_ofMixedCase (name : String) :
    (ofMixedCase (ofMixedCase name)).toList = join (join (stripMarks name.toList)) := by
  rw [(lettered_ofMixedCase name).toList_ofMixedCase, toList_ofMixedCase]

/-- A name in which no two neighbouring words run together has an identifier that stays as it is. -/
theorem ofMixedCase_ofMixedCase_of_isChain {name : String}
    (h : (words (stripMarks name.toList)).IsChain fun v w ↦ ¬ RunTogether v w) :
    ofMixedCase (ofMixedCase name) = ofMixedCase name := by
  rw [← String.toList_inj, toList_ofMixedCase_ofMixedCase, toList_ofMixedCase,
    join_join_of_isChain h]

/-- Every run of capitals that is read as a word of a name is a single letter or an initialism. -/
def CapitalsSettled (name : String) : Prop :=
  ∀ w ∈ words name.toList, (∀ c ∈ w, c.isUpper = true) → w.length = 1 ∨ w ∈ initialisms

/-- **When an identifier stays as it is.** An identifier that is made into an identifier again is
the same exactly if its capitals are settled; after the second time it always is. A path whose
innermost name is an exported identifier is named by that identifier under the same condition. -/
theorem ofMixedCase_again (name : String) :
    (ofMixedCase (ofMixedCase name) = ofMixedCase name ↔ CapitalsSettled (ofMixedCase name)) ∧
    ofMixedCase (ofMixedCase (ofMixedCase name)) = ofMixedCase (ofMixedCase name) ∧
    ∀ p : Path, p.currentIsExported = true → p.popPrivate.current = ofMixedCase name →
      (p.exportedName = p.popPrivate.current ↔ CapitalsSettled (ofMixedCase name)) := by
  have hagain : ofMixedCase (ofMixedCase name) = ofMixedCase name ↔
      CapitalsSettled (ofMixedCase name) := by
    rw [← String.toList_inj, toList_ofMixedCase_ofMixedCase, toList_ofMixedCase, join_join_iff,
      CapitalsSettled, toList_ofMixedCase]
  refine ⟨hagain, ?_, fun p hexported hcurrent ↦ ?_⟩
  · have hmarks : stripMarks (ofMixedCase name).toList = (ofMixedCase name).toList :=
      stripMarks_eq_self (lettered_ofMixedCase name)
    -- The words of an identifier have been read as far as they go, so none of them run together.
    rw [← String.toList_inj, toList_ofMixedCase_ofMixedCase, toList_ofMixedCase_ofMixedCase, hmarks,
      toList_ofMixedCase, join_join_of_isChain (isChain_words_join _)]
  · rw [Path.exportedName, if_pos hexported, hcurrent, hagain]

/-- An identifier that stays as it is, alone and at the end of a path. -/
theorem ofMixedCase_again_roles :
    ofMixedCase (ofMixedCase "role_ids") = ofMixedCase "role_ids" ∧
      (Path.ofNames "Guild" ["RoleIDs"]).currentIsExported = true ∧
      (Path.ofNames "Guild" ["RoleIDs"]).exportedName = "RoleIDs" := by
  have hname : ofMixedCase "role_ids" = "RoleIDs" := by decide +kernel
  have hsettled : CapitalsSettled (ofMixedCase "role_ids") := by
    have hwords : words "RoleIDs".toList = ["Role".toList, "I".toList, "Ds".toList] := by
      decide +kernel
    rw [hname, CapitalsSettled, hwords]
    simp
  have hexported : (Path.ofNames "Guild" ["RoleIDs"]).currentIsExported = true := by
    decide +kernel
  have hcurrent : (Path.ofNames "Guild" ["RoleIDs"]).popPrivate.current = "RoleIDs" := by
    decide +kernel
  obtain ⟨hagain, -, hpath⟩ := ofMixedCase_again "role_ids"
  refine ⟨hagain.mpr hsettled, hexported, ?_⟩
  rw [(hpath _ hexported (hcurrent.trans hname.symm)).mpr hsettled, hcurrent]

/-- Two initialisms next to each other are read as one word that is none. -/
theorem not_ofMixedCase_again : ¬ ∀ name : String,
    ofMixedCase (ofMixedCase name) = ofMixedCase name := by
  intro h
  have hurl := h "id_url"
  revert hurl
  decide +kernel

end SchemaTypes.Identifier
