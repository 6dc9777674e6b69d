import Mathlib
import SchemaTypes.Proofs.Text.Remarks
import SchemaTypes.Proofs.Text.Stretches

/-!
# Words with a point in comments

A comment is made of a description: the article is dropped, the first letter is made a small one, a
name is put in front and a full stop behind, and all that is set in lines. Dropping and setting only
cut, and they put blanks for blanks, so they make no word with a point
(`infix_of_infix_formatChars`). A small letter may: a comment on `Time.Time` has `time.Time` in it.
So a word stands in a comment only if the description has it, with a small or with a capital first
letter (`infix_of_infix_proseChars`).
-/

namespace SchemaTypes

namespace Text

/-! ## Lower case -/

theorem exists_mem_of_runOffset {table : List (Nat × Nat × Nat × Int)} {n : Nat} {offset : Int}
    (h : runOffset table n = some offset) :
    ∃ run ∈ table, run.1 ≤ n ∧ n ≤ run.2.1 ∧ run.2.2.2 = offset := by
  induction table with
  | nil => cases h
  | cons run rest ih =>
    rw [runOffset] at h
    split at h
    · cases h
    split at h
    · next hlo hrun =>
      cases h
      rw [Bool.and_eq_true, decide_eq_true_iff] at hrun
      exact ⟨run, List.mem_cons_self, Nat.not_lt.mp hlo, hrun.1, rfl⟩
    · obtain ⟨other, hother, hn⟩ := ih h
      exact ⟨other, List.mem_cons_of_mem _ hother, hn⟩

/-- Two letters are a small one and its capital, and the lower case of no other character has the
small one in it. -/
structure IsCasePair (small capital : Char) : Prop where
  lower_small : lowerChar small = [small]
  lower_capital : lowerChar capital = [small]
  eq_or_eq : ∀ c, small ∈ lowerChar c → c = small ∨ c = capital

/-- That no other character has a lower case with a small letter in it shows in the table. -/
theorem eq_or_eq_of_mem_lowerChar {small capital : Char} (hletter : small ∉ ['i', '\u0307', '\x00'])
    (hruns : ∀ run ∈ lowerRuns, (run.1 : Int) ≤ small.toNat - run.2.2.2 →
      (small.toNat - run.2.2.2 : Int) ≤ run.2.1 →
      (small.toNat - run.2.2.2 : Int) = capital.toNat)
    {c : Char} (h : small ∈ lowerChar c) : c = small ∨ c = capital := by
  simp only [List.mem_cons, not_or] at hletter
  obtain ⟨hi, hdot, hnull, -⟩ := hletter
  have hpos : small.toNat ≠ 0 := fun hzero ↦ hnull (Char.toNat_inj.mp hzero)
  unfold lowerChar at h
  split at h
  · simp only [List.mem_cons, hi, hdot, List.not_mem_nil, or_false] at h
  split at h
  · next offset hoffset =>
    obtain ⟨run, hrun, hlo, hhi, rfl⟩ := exists_mem_of_runOffset hoffset
    have hsmall := congrArg Char.toNat (List.mem_singleton.mp h)
    rw [Char.toNat_ofNat] at hsmall
    split at hsmall
    · have hcapital := hruns run hrun (by omega) (by omega)
      exact .inr (Char.toNat_inj.mp (by omega))
    · exact absurd hsmall hpos
  · exact .inl (List.mem_singleton.mp h).symm

theorem isCasePair_t : IsCasePair 't' 'T' :=
  ⟨by decide, by decide, fun _ ↦ eq_or_eq_of_mem_lowerChar (by decide) (by decide +kernel)⟩

theorem isCasePair_o : IsCasePair 'o' 'O' :=
  ⟨by decide, by decide, fun _ ↦ eq_or_eq_of_mem_lowerChar (by decide) (by decide +kernel)⟩

/-- The lower case of a single character does not depend on what is around it. -/
theorem lower_singleton (c : Char) : lower [c] = lowerChar c := by
  have hnone : meetsCased [] = false := rfl
  rw [lower, lowerAfter, lowerAfter, hnone, Bool.and_false, Bool.false_and,
    if_neg Bool.false_ne_true, List.append_nil]

/-! ## Lines -/

theorem infix_of_mem_splitLines {cs line : List Char} (h : line ∈ splitLines cs) :
    line <:+: cs := by
  obtain ⟨l, hl, rfl⟩ := List.mem_map.mp h
  have hwhole : l.whole <:+: cs := by
    rw [← flatMap_whole_lines cs, List.flatMap_def]
    exact List.infix_of_mem_flatten (List.mem_map_of_mem hl)
  exact (List.prefix_append l.content l.boundary).isInfix.trans hwhole

theorem strip_isInfix (cs : List Char) : strip cs <:+: cs :=
  (stripRight_isPrefix _).isInfix.trans (List.dropWhile_suffix _).isInfix

theorem dropBeginning_suffix (beginning cs : List Char) : dropBeginning beginning cs <:+ cs := by
  unfold dropBeginning
  split
  · exact List.drop_suffix _ _
  · exact List.suffix_rfl

/-- Where plain blanks stand for others, no stretch begins that begins with no blank. -/
theorem prefix_of_prefix_plainBlanks {v cs : List Char} (hv : ∀ c ∈ v, isBreak c = false)
    {column : Nat}
    (h : v <+: (expandTabs column cs).map fun c ↦ if isLineBlank c then ' ' else c) : v <+: cs := by
  induction v generalizing cs column with
  | nil => exact List.nil_prefix
  | cons d v ih =>
    obtain ⟨hd, hrest⟩ := List.forall_mem_cons.mp hv
    have hspace : d ≠ ' ' := by
      rintro rfl
      cases hd
    cases cs with
    | nil => exact h
    | cons c cs =>
      rw [expandTabs] at h
      split at h
      · -- A tab becomes one blank or more.
        obtain ⟨width, hwidth⟩ : ∃ width, 8 - column % 8 = width + 1 := ⟨7 - column % 8, by omega⟩
        dsimp only at h
        rw [hwidth, List.replicate_succ, List.cons_append, List.map_cons] at h
        exact absurd (List.cons_prefix_cons.mp h).1 hspace
      · rw [List.map_cons] at h
        obtain ⟨hhead, htail⟩ := List.cons_prefix_cons.mp h
        split at hhead
        · exact absurd hhead hspace
        · exact List.cons_prefix_cons.mpr ⟨hhead, ih hrest htail⟩

namespace IsDotted

variable {w : List Char} (hw : IsDotted w)

include hw

theorem infix_of_infix_plainBlanks {cs : List Char} (h : w <:+: plainBlanks cs) : w <:+: cs := by
  unfold plainBlanks at h
  generalize 0 = column at h
  induction cs generalizing column with
  | nil => exact h
  | cons c cs ih =>
    have hcons : w <:+: cs → w <:+: c :: cs := fun h ↦ h.trans (List.suffix_cons c cs).isInfix
    by_cases htab : (c == '\t') = true
    · obtain ⟨d, v, rfl⟩ := List.exists_cons_of_ne_nil (List.ne_nil_of_mem hw.dot)
      have hd : d ∉ (List.replicate (8 - column % 8) ' ').map fun c ↦
          if isLineBlank c then ' ' else c := by
        intro hmem
        obtain ⟨e, he, hde⟩ := List.mem_map.mp hmem
        obtain rfl := List.eq_of_mem_replicate he
        have hbreak : isBreak d = true := by
          rw [← hde]
          decide
        exact hw.not_mem_of_isBreak hbreak List.mem_cons_self
      rw [expandTabs, if_pos htab, List.map_append] at h
      exact hcons (ih _ (infix_of_infix_append hd h))
    · have hexpand : expandTabs column (c :: cs) =
          c :: expandTabs (if c == '\n' || c == '\r' then 0 else column + 1) cs := by
        rw [expandTabs, if_neg htab]
      rw [hexpand] at h
      rcases List.infix_cons_iff.mp h with hprefix | hstretch
      · have hexpanded : w <+: (expandTabs column (c :: cs)).map fun c ↦
            if isLineBlank c then ' ' else c := by
          rw [hexpand]
          exact hprefix
        exact (prefix_of_prefix_plainBlanks hw.letters hexpanded).isInfix
      · exact hcons (ih _ hstretch)

end IsDotted

end Text

namespace Comment

open Text

variable {w : List Char} (hw : IsDotted w)

include hw

/-! ## Lines of comments -/

theorem infix_of_mem_paragraphLines {indent : Nat} {wrap : Bool} {paragraph line : List Char}
    (hline : line ∈ paragraphLines indent wrap paragraph) (h : w <:+: line) :
    w <:+: paragraph := by
  unfold paragraphLines at hline
  split at hline
  · split at hline
    · obtain rfl := List.mem_singleton.mp hline
      exact absurd h hw.not_infix_nil
    · exact hw.infix_of_infix_plainBlanks (h.trans (infix_of_mem_wrap hline))
  · obtain rfl := List.mem_singleton.mp hline
    exact h

/-- Setting a text in lines of comments makes no word. -/
theorem infix_of_infix_formatChars {indent : Nat} {wrap : Bool} {cs : List Char}
    (h : w <:+: formatChars indent wrap cs) : w <:+: cs := by
  have hends : ∀ text ∈ ((splitLines cs).flatMap (paragraphLines indent wrap)).map
      (commentLine indent), ∀ c ∈ text.getLast?, isBreak c = true := by
    intro text htext c hc
    obtain ⟨line, -, rfl⟩ := List.mem_map.mp htext
    rw [commentLine, List.getLast?_concat, Option.mem_some_iff] at hc
    rw [← hc]
    decide
  rw [formatChars, List.flatMap_def, hw.infix_flatten_iff hends] at h
  obtain ⟨_, htext, h⟩ := h
  obtain ⟨line, hline, rfl⟩ := List.mem_map.mp htext
  obtain ⟨paragraph, hparagraph, hline⟩ := List.mem_flatMap.mp hline
  have hfeed : Parted (stripRight (margin indent ++ line)) ['\n'] := parted_of_cons (by decide) _ _
  have hnone : '.' ∉ ['\n'] := by decide
  rw [commentLine, hw.infix_append_iff hfeed, or_iff_left (hw.not_infix_of_not_mem hnone)] at h
  have hline' : w <:+: margin indent ++ line := h.trans (stripRight_isPrefix _).isInfix
  have hmargin : Parted (margin indent) line := by
    refine .inl fun c hc ↦ ?_
    rw [margin, List.getLast?_append_of_ne_nil _ (by simp)] at hc
    obtain rfl := Option.mem_some_iff.mp hc
    decide
  have hslashes : '.' ∉ margin indent := by simp [margin]
  rw [hw.infix_append_iff hmargin, or_iff_right (hw.not_infix_of_not_mem hslashes)] at hline'
  exact (infix_of_mem_paragraphLines hw hline hline').trans (infix_of_mem_splitLines hparagraph)

/-! ## Sentences -/

omit hw

theorem dropArticle_suffix (cs : List Char) : dropArticle cs <:+ cs := by
  unfold dropArticle
  dsimp only
  split
  · exact (List.drop_suffix _ _).trans (List.dropWhile_suffix _)
  · exact List.suffix_rfl

section

variable {small capital : Char} (hpair : IsCasePair small capital) {v : List Char}

include hpair

/-- What begins with a small letter is made of what begins with it or with its capital. -/
theorem infix_of_infix_lowerFirst {cs : List Char} (h : small :: v <:+: lowerFirst cs) :
    small :: v <:+: cs ∨ capital :: v <:+: cs := by
  cases cs with
  | nil => exact .inl h
  | cons c cs =>
    rw [lowerFirst, List.take_succ_cons, List.take_zero, lower_singleton, List.drop_succ_cons,
      List.drop_zero] at h
    by_cases hmem : small ∈ lowerChar c
    · rcases hpair.eq_or_eq c hmem with rfl | rfl
      · rw [hpair.lower_small] at h
        exact .inl h
      · rw [hpair.lower_capital] at h
        rcases List.infix_cons_iff.mp h with hprefix | hstretch
        · obtain ⟨-, hrest⟩ := List.cons_prefix_cons.mp hprefix
          exact .inr (List.cons_prefix_cons.mpr ⟨rfl, hrest⟩).isInfix
        · exact .inl (hstretch.trans (List.suffix_cons c cs).isInfix)
    · exact .inl ((infix_of_infix_append hmem h).trans (List.suffix_cons c cs).isInfix)

theorem infix_of_infix_linked {cs : List Char} {link : Link} (h : small :: v <:+: linked cs link) :
    small :: v <:+: cs ∨ capital :: v <:+: cs := by
  have hfirst : ∀ ds, ds <:+: cs → small :: v <:+: lowerFirst ds →
      small :: v <:+: cs ∨ capital :: v <:+: cs := fun ds hds hstretch ↦
    (infix_of_infix_lowerFirst hpair hstretch).imp (·.trans hds) (·.trans hds)
  unfold linked at h
  split at h
  · have hthis := (dropBeginning_suffix "this ".toList cs).isInfix
    unfold lowerUnlessAcronym at h
    split at h
    · next hds =>
      split at h
      · exact .inl (h.trans (hds ▸ hthis))
      · exact hfirst _ (hds ▸ hthis) h
    · exact hfirst _ hthis h
  · exact hfirst _ List.infix_rfl h

/-- A word in the sentence on a name is made of one in the description. -/
theorem infix_of_infix_proseChars (hw : IsDotted (small :: v))
    {name description subject : List Char} (hname : '.' ∉ name)
    (h : small :: v <:+: proseChars name description subject) :
    small :: v <:+: description ∨ capital :: v <:+: description := by
  have hbody : dropArticle (strip description) <:+: description :=
    (dropArticle_suffix _).isInfix.trans (strip_isInfix _)
  unfold proseChars at h
  dsimp only at h
  split at h
  · exact absurd h hw.not_infix_nil
  generalize link subject (dropArticle (strip description)) = link at h
  have hsentence : small :: v <:+:
      name ++ link.separator.toList ++ linked (dropArticle (strip description)) link := by
    unfold addStop at h
    split at h
    · exact h
    · exact hw.infix_of_infix_stop h
  have hblank : ∃ before, link.separator.toList = before ++ [' '] ∧ '.' ∉ before := by
    cases link
    · exact ⟨"".toList, rfl, by simp⟩
    · exact ⟨" is".toList, rfl, by simp⟩
    · exact ⟨" is the".toList, rfl, by simp⟩
    · exact ⟨":".toList, rfl, by simp⟩
  obtain ⟨before, hseparator, hbefore⟩ := hblank
  rw [hseparator, ← List.append_assoc, hw.infix_append_iff (parted_of_concat (by decide) _ _)]
    at hsentence
  rcases hsentence with hfront | hlinked
  · refine absurd hfront (hw.not_infix_of_not_mem ?_)
    simp [hname, hbefore]
  · exact (infix_of_infix_linked hpair hlinked).imp (·.trans hbody) (·.trans hbody)

end

end Comment

end SchemaTypes
