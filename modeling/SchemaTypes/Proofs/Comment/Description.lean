import SchemaTypes.Proofs.Text.Sentences

/-!
# What a sentence keeps of a description

The sentence that documents a name is empty only if there is nothing to say. Otherwise it is the
name, one of four links and the description, closed by a full stop; the description may lose an
article or a `this` at its beginning and write its first letter small, and nothing else
(`prose_keeps_description`).
-/

namespace SchemaTypes.Comment

open Text

/-! ## Beginnings of descriptions -/

/-- An article in small or capital letters, with the blank behind it. -/
def IsArticle (cs : List Char) : Prop :=
  ∃ word, lower word ∈ ["a", "an", "the"].map String.toList ∧ cs = word ++ [' ']

/-- What a description may lose at its beginning: nothing, an article, a `this`, or both. -/
def IsOpening (cs : List Char) : Prop :=
  ∃ article pronoun, (article = [] ∨ IsArticle article) ∧
    (pronoun = [] ∨ pronoun = "this ".toList) ∧ cs = article ++ pronoun

/-- A first word, the blank behind it and the rest make up a text. -/
theorem firstWord_append {cs : List Char} (h : firstWord cs ≠ []) :
    firstWord cs ++ ' ' :: afterFirstWord cs = cs := by
  unfold firstWord at h ⊢
  split at h
  · next hblank =>
    rw [if_pos hblank, afterFirstWord]
    conv_rhs => rw [← List.takeWhile_append_dropWhile (p := (· != ' ')) (l := cs)]
    congr 1
    have hne : cs.dropWhile (· != ' ') ≠ [] := fun hnil ↦ by
      have hall := List.dropWhile_eq_nil_iff.mp hnil ' ' (List.contains_iff_mem.mp hblank)
      exact absurd hall (by decide)
    obtain ⟨c, rest, hcons⟩ := List.exists_cons_of_ne_nil hne
    have hc := List.head_dropWhile_not (· != ' ') hne
    simp only [hcons, List.head_cons, bne_eq_false_iff_eq] at hc
    rw [hcons, hc, List.drop_succ_cons, List.drop_zero]
  · exact absurd rfl h

theorem exists_article (cs : List Char) :
    ∃ article, (article = [] ∨ IsArticle article) ∧ cs = article ++ dropArticle cs := by
  unfold dropArticle
  dsimp only
  split
  · next harticle =>
    have hlower : lower (firstWord cs) ∈ ["a", "an", "the"].map String.toList := by
      simpa [or_assoc] using harticle
    have hword : firstWord cs ≠ [] := by
      intro hnil
      rw [hnil] at hlower
      exact absurd hlower (by decide)
    refine ⟨firstWord cs ++ [' '], .inr ⟨_, hlower, rfl⟩, ?_⟩
    rw [List.append_assoc, List.singleton_append, firstWord_append hword]
  · exact ⟨[], .inl rfl, rfl⟩

/-! ## Sentences -/

theorem dropBeginning_eq (beginning cs : List Char) :
    ∃ dropped, (dropped = [] ∨ dropped = beginning) ∧
      cs = dropped ++ dropBeginning beginning cs := by
  unfold dropBeginning
  split
  · next hprefix =>
    obtain ⟨rest, rfl⟩ := List.isPrefixOf_iff_prefix.mp hprefix
    exact ⟨beginning, .inr rfl, by rw [List.drop_left]⟩
  · exact ⟨[], .inl rfl, rfl⟩

/-- A link asks for no more than a small letter and no `this`. -/
theorem exists_linked (link : Link) (cs : List Char) :
    ∃ pronoun kept, (pronoun = [] ∨ pronoun = "this ".toList) ∧ cs = pronoun ++ kept ∧
      (linked cs link = kept ∨ linked cs link = lowerFirst kept) := by
  have hverbal : ∃ pronoun kept, (pronoun = [] ∨ pronoun = "this ".toList) ∧ cs = pronoun ++ kept ∧
      (lowerFirst cs = kept ∨ lowerFirst cs = lowerFirst kept) :=
    ⟨[], cs, .inl rfl, rfl, .inr rfl⟩
  cases link with
  | verb => exact hverbal
  | participle => exact hverbal
  | noun => exact hverbal
  | label =>
    obtain ⟨pronoun, hpronoun, hcs⟩ := dropBeginning_eq "this ".toList cs
    refine ⟨pronoun, _, hpronoun, hcs, ?_⟩
    rw [linked]
    generalize dropBeginning "this ".toList cs = kept
    unfold lowerUnlessAcronym
    split
    · split
      · exact .inl rfl
      · exact .inr rfl
    · exact .inr rfl

theorem separator_mem (link : Link) : link.separator ∈ [" ", " is ", " is the ", ": "] := by
  cases link <;> decide

theorem exists_addStop {cs : List Char} (h : cs ≠ []) :
    ∃ stop, (stop = [] ∨ stop = ['.']) ∧ addStop cs = cs ++ stop ∧
      (addStop cs).getLast? = some '.' := by
  unfold addStop
  split
  · next hstop =>
    have hlast : cs.getLast? = some '.' := by simpa [h] using hstop
    exact ⟨[], .inl rfl, (List.append_nil _).symm, hlast⟩
  · exact ⟨['.'], .inr rfl, rfl, List.getLast?_concat⟩

/-- The sentence on a name is put together of name, link, description and full stop. -/
theorem exists_proseChars {name description subject : List Char} (h : strip description ≠ []) :
    ∃ separator ∈ [" ", " is ", " is the ", ": "], ∃ dropped kept body stop,
      strip description = dropped ++ kept ∧ IsOpening dropped ∧
      (body = kept ∨ body = lowerFirst kept) ∧ (stop = [] ∨ stop = ['.']) ∧
      proseChars name description subject = name ++ separator.toList ++ body ++ stop ∧
      (proseChars name description subject).getLast? = some '.' := by
  -- An article is dropped before the link is chosen, a `this` behind it only for one of the links.
  obtain ⟨article, harticle, hstripped⟩ := exists_article (strip description)
  have hempty : (strip description).isEmpty = false := by simpa using h
  unfold proseChars
  simp only [hempty, Bool.false_eq_true, if_false]
  generalize dropArticle (strip description) = described at hstripped
  generalize link subject described = link
  obtain ⟨pronoun, kept, hpronoun, rfl, hkept⟩ := exists_linked link described
  have hsome : name ++ link.separator.toList ++ linked (pronoun ++ kept) link ≠ [] := by
    have hseparator : link.separator.toList ≠ [] := by cases link <;> decide
    simp [hseparator]
  obtain ⟨stop, hstop, hsentence, hlast⟩ := exists_addStop hsome
  refine ⟨link.separator, separator_mem link, article ++ pronoun, kept, _, stop, ?_,
    ⟨article, pronoun, harticle, hpronoun, rfl⟩, hkept, hstop, hsentence, hlast⟩
  rw [hstripped, List.append_assoc]

/-- A sentence on a name is empty exactly if the description is blank. Otherwise it is the name, a
link, what is kept of the description, and a full stop if there is none: kept is all but an opening,
with the first letter made a small one or not. -/
theorem prose_keeps_description (name description subject : String) :
    (prose name description subject = "" ↔ ∀ c ∈ description.toList, isBlank c = true) ∧
    ((∃ c ∈ description.toList, isBlank c = false) →
      ∃ separator ∈ [" ", " is ", " is the ", ": "], ∃ dropped kept body stop,
        strip description.toList = dropped ++ kept ∧ IsOpening dropped ∧
        (body = kept ∨ body = lowerFirst kept) ∧ (stop = [] ∨ stop = ['.']) ∧
        (prose name description subject).toList =
          name.toList ++ separator.toList ++ body ++ stop ∧
        (prose name description subject).toList.getLast? = some '.') := by
  have hchars : (prose name description subject).toList =
      proseChars name.toList description.toList subject.toList := String.toList_ofList
  rw [← strip_eq_nil_iff, ← String.toList_inj, hchars]
  refine ⟨⟨fun hprose ↦ ?_, fun hblank ↦ ?_⟩, fun ⟨c, hc, hshows⟩ ↦ exists_proseChars ?_⟩
  · by_contra hsome
    obtain ⟨-, -, -, -, -, -, -, -, -, -, -, hlast⟩ := exists_proseChars hsome
    rw [hprose] at hlast
    cases hlast
  · simp [proseChars, hblank]
  · intro hblank
    rw [strip_eq_nil_iff.mp hblank c hc] at hshows
    cases hshows

/-- An article and a `this` are dropped together. -/
theorem prose_keeps_description_both :
    (∃ c ∈ "The this id".toList, isBlank c = false) ∧
      ∃ separator ∈ [" ", " is ", " is the ", ": "], ∃ dropped kept body stop,
        strip "The this id".toList = dropped ++ kept ∧ IsOpening dropped ∧
        (body = kept ∨ body = lowerFirst kept) ∧ (stop = [] ∨ stop = ['.']) ∧
        (prose "ID" "The this id" "").toList =
          "ID".toList ++ separator.toList ++ body ++ stop ∧
        (prose "ID" "The this id" "").toList.getLast? = some '.' :=
  have hshows : ∃ c ∈ "The this id".toList, isBlank c = false := ⟨'T', by decide, by decide⟩
  ⟨hshows, (prose_keeps_description "ID" "The this id" "").2 hshows⟩

example : prose "ID" "The this id" "" = "ID: id." := by decide +kernel

end SchemaTypes.Comment
