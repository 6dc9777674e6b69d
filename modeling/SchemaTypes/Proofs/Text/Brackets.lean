import Mathlib
import SchemaTypes.Json.Literal
import SchemaTypes.Proofs.Text.Sentences

/-!
# Brackets in texts

The brackets of a text are nested when each one that is opened is closed by one of its kind, with
nested brackets between them (`Text.Nested`). Whether they are shows when the text is read once with
the brackets in mind that are still open (`Text.nested_iff_awaited_eq`).

A well-bracketed text can be put in at any place of another one, and taken out again, without any
change to the brackets around it. So texts that are put together are well bracketed if the pieces
are, or if what is left without the pieces is (`Text.WellBracketed.between`). Comments on names are
made of the characters of their descriptions, of blanks, and of letters and signs that are no
brackets (`Comment.bracketFree_prose`, `Comment.bracketFree_partComment`).
-/

namespace SchemaTypes

namespace Text

/-! ## Nested brackets -/

/-- The bracket that closes an opening one. -/
def closer? : Char → Option Char
  | '(' => some ')'
  | '[' => some ']'
  | '{' => some '}'
  | _ => none

/-- Whether a character is a closing bracket. -/
def isCloser (c : Char) : Bool := c == ')' || c == ']' || c == '}'

/-- Whether a character is a bracket. -/
def isBracket (c : Char) : Bool := (closer? c).isSome || isCloser c

/-- All brackets. -/
def brackets : List Char := ['(', ')', '[', ']', '{', '}']

theorem mem_brackets {c : Char} (h : isBracket c = true) : c ∈ brackets := by
  rw [isBracket, Bool.or_eq_true] at h
  rcases h with hopener | hcloser
  · unfold closer? at hopener
    split at hopener
    · decide
    · decide
    · decide
    · cases hopener
  · simp only [isCloser, Bool.or_eq_true, beq_iff_eq] at hcloser
    rcases hcloser with (rfl | rfl) | rfl <;> decide

/-- There is no bracket among characters. -/
def Plain (cs : List Char) : Prop := ∀ c ∈ cs, isBracket c = false

/-- The brackets among characters are nested. -/
inductive Nested : List Char → Prop
  | nil : Nested []
  | plain {c : Char} {rest : List Char} : isBracket c = false → Nested rest → Nested (c :: rest)
  | pair {opener closer : Char} {inner rest : List Char} : closer? opener = some closer →
      Nested inner → Nested rest → Nested (opener :: (inner ++ closer :: rest))

/-- The closing brackets that are awaited behind a character, the innermost one first, given those
awaited before it. No other closing bracket may be there. -/
def awaitedBehind (pending : List Char) (c : Char) : Option (List Char) :=
  match closer? c with
  | some closer => some (closer :: pending)
  | none =>
    if !isCloser c then some pending
    else if pending.head? = some c then some pending.tail
    else none

/-- The closing brackets that are awaited behind characters, given those awaited before them. -/
def awaited (pending cs : List Char) : Option (List Char) := cs.foldlM awaitedBehind pending

section

variable {c d : Char} {a b rest pending : List Char}

theorem isCloser_of_closer?_eq_some (h : closer? c = some d) :
    isCloser d = true ∧ closer? d = none := by
  unfold closer? at h
  split at h <;> cases h <;> exact ⟨rfl, rfl⟩

theorem awaitedBehind_opener (h : closer? c = some d) :
    awaitedBehind pending c = some (d :: pending) := by
  rw [awaitedBehind, h]

theorem awaitedBehind_closer (h : closer? c = some d) :
    awaitedBehind (d :: pending) d = some pending := by
  obtain ⟨hcloser, hnone⟩ := isCloser_of_closer?_eq_some h
  rw [awaitedBehind, hnone]
  simp [hcloser]

theorem awaitedBehind_plain (h : isBracket c = false) : awaitedBehind pending c = some pending := by
  rw [isBracket, Bool.or_eq_false_iff, Option.isSome_eq_false_iff, Option.isNone_iff_eq_none] at h
  rw [awaitedBehind, h.1]
  simp [h.2]

theorem awaited_cons :
    awaited pending (c :: rest) = (awaitedBehind pending c).bind (awaited · rest) :=
  List.foldlM_cons

theorem awaited_append : awaited pending (a ++ b) = (awaited pending a).bind (awaited · b) :=
  List.foldlM_append

/-- Nested brackets leave those open that are open around them. -/
theorem Nested.awaited_eq (h : Nested a) (pending : List Char) :
    awaited pending a = some pending := by
  induction h generalizing pending with
  | nil => rfl
  | plain hplain _ ih => rw [awaited_cons, awaitedBehind_plain hplain, Option.bind_some, ih]
  | pair hpair _ _ hinner hrest =>
    rw [awaited_cons, awaitedBehind_opener hpair, Option.bind_some, awaited_append, hinner,
      Option.bind_some, awaited_cons, awaitedBehind_closer hpair, Option.bind_some, hrest]

theorem Nested.append (ha : Nested a) (hb : Nested b) : Nested (a ++ b) := by
  induction ha with
  | nil => exact hb
  | plain hplain _ ih => exact .plain hplain ih
  | pair hpair hinner _ _ hrest =>
    rw [List.cons_append, List.append_assoc, List.cons_append]
    exact .pair hpair hinner hrest

theorem plain_nil : Plain [] := List.forall_mem_nil _

theorem Plain.cons (hc : isBracket c = false) (h : Plain rest) : Plain (c :: rest) :=
  List.forall_mem_cons.mpr ⟨hc, h⟩

theorem Plain.append (ha : Plain a) (hb : Plain b) : Plain (a ++ b) :=
  List.forall_mem_append.mpr ⟨ha, hb⟩

theorem Plain.nested (h : Plain a) : Nested a := by
  induction a with
  | nil => exact .nil
  | cons c rest ih =>
    obtain ⟨hc, hrest⟩ := List.forall_mem_cons.mp h
    exact .plain hc (ih hrest)

/-- Characters close brackets one after the other, with nested brackets in front of each of them and
behind the last one. -/
def Closes : List Char → List Char → Prop
  | [], cs => Nested cs
  | closer :: outer, cs =>
    ∃ inner rest, cs = inner ++ closer :: rest ∧ Nested inner ∧ Closes outer rest

theorem Closes.append_left (ha : Nested a) (hb : Closes pending b) : Closes pending (a ++ b) := by
  cases pending with
  | nil => exact ha.append hb
  | cons closer outer =>
    obtain ⟨inner, rest, rfl, hinner, hrest⟩ := hb
    exact ⟨a ++ inner, rest, by rw [List.append_assoc], ha.append hinner, hrest⟩

/-- Where no bracket is left open, all that were open before are closed. -/
theorem closes_of_awaited_eq (h : awaited pending a = some []) : Closes pending a := by
  induction a generalizing pending with
  | nil =>
    obtain rfl := Option.some.inj h
    exact Nested.nil
  | cons c rest ih =>
    rw [awaited_cons, Option.bind_eq_some_iff] at h
    obtain ⟨next, hnext, hrest⟩ := h
    have hclosed := ih hrest
    unfold awaitedBehind at hnext
    split at hnext
    · next closer hopener =>
      obtain rfl := Option.some.inj hnext
      -- The bracket is closed by the first one awaited then, and both make a pair.
      obtain ⟨inner, behind, rfl, hinner, hbehind⟩ := hclosed
      have hpair : Nested (c :: (inner ++ [closer])) := .pair hopener hinner .nil
      have hall := Closes.append_left hpair hbehind
      rwa [List.cons_append, List.append_assoc, List.singleton_append] at hall
    next hnone =>
    by_cases hcloser : isCloser c = true
    · simp only [hcloser, Bool.not_true, Bool.false_eq_true, if_false,
        Option.ite_none_right_eq_some] at hnext
      obtain ⟨hhead, htail⟩ := hnext
      obtain ⟨outer, rfl⟩ := List.head?_eq_some_iff.mp hhead
      obtain rfl := Option.some.inj htail
      exact ⟨[], rest, rfl, .nil, hclosed⟩
    · rw [Bool.not_eq_true] at hcloser
      simp only [hcloser, Bool.not_false, if_true, Option.some.injEq] at hnext
      have hplain : isBracket c = false := by
        rw [isBracket, hnone, hcloser]
        rfl
      exact Closes.append_left (.plain hplain .nil) (hnext ▸ hclosed)

/-- **Brackets are nested if none is left open** when the characters are read once. -/
theorem nested_iff_awaited_eq : Nested a ↔ awaited [] a = some [] :=
  ⟨fun h ↦ h.awaited_eq [], closes_of_awaited_eq⟩

instance (cs : List Char) : Decidable (Nested cs) := decidable_of_iff _ nested_iff_awaited_eq.symm

theorem nested_append_iff_right (ha : Nested a) : Nested (a ++ b) ↔ Nested b := by
  rw [nested_iff_awaited_eq, awaited_append, ha.awaited_eq, Option.bind_some, nested_iff_awaited_eq]

theorem nested_append_iff_left (hb : Nested b) : Nested (a ++ b) ↔ Nested a := by
  have hopen : (awaited · b) = some := funext hb.awaited_eq
  rw [nested_iff_awaited_eq, awaited_append, hopen, Option.bind_fun_some, nested_iff_awaited_eq]

/-- Nested brackets may be put in anywhere. -/
theorem Nested.between (h : Nested (a ++ rest)) (hb : Nested b) : Nested (a ++ (b ++ rest)) := by
  have hopen : (awaited · (b ++ rest)) = (awaited · rest) := by
    funext pending
    rw [awaited_append, hb.awaited_eq, Option.bind_some]
  rw [nested_iff_awaited_eq, awaited_append] at h ⊢
  rw [hopen, h]

end

/-! ## Texts -/

/-- The brackets of a text are nested. -/
def WellBracketed (text : String) : Prop := Nested text.toList

/-- A text has no bracket in it. -/
def BracketFree (text : String) : Prop := Plain text.toList

instance : DecidablePred WellBracketed :=
  fun text ↦ inferInstanceAs (Decidable (Nested text.toList))

instance : DecidablePred BracketFree :=
  fun text ↦ List.decidableBAll (isBracket · = false) text.toList

theorem isBracket_of_isWordLetter {c : Char} (h : Identifier.isWordLetter c = true) :
    isBracket c = false := by
  by_contra hbracket
  rw [Bool.not_eq_false] at hbracket
  have hmem := mem_brackets hbracket
  simp only [brackets, List.mem_cons, List.not_mem_nil, or_false] at hmem
  rcases hmem with rfl | rfl | rfl | rfl | rfl | rfl <;> cases h

variable {s t u : String}

theorem BracketFree.wellBracketed (h : BracketFree s) : WellBracketed s := Plain.nested h

theorem bracketFree_of_lettered (h : Identifier.Lettered s) : BracketFree s :=
  fun c hc ↦ isBracket_of_isWordLetter (h c hc)

theorem wellBracketed_of_lettered (h : Identifier.Lettered s) : WellBracketed s :=
  (bracketFree_of_lettered h).wellBracketed

theorem WellBracketed.append (hs : WellBracketed s) (ht : WellBracketed t) :
    WellBracketed (s ++ t) := by
  rw [WellBracketed, String.toList_append]
  exact Nested.append hs ht

theorem wellBracketed_append_iff_right (hs : WellBracketed s) :
    WellBracketed (s ++ t) ↔ WellBracketed t := by
  rw [WellBracketed, String.toList_append, nested_append_iff_right hs]
  rfl

theorem wellBracketed_append_iff_left (ht : WellBracketed t) :
    WellBracketed (s ++ t) ↔ WellBracketed s := by
  rw [WellBracketed, String.toList_append, nested_append_iff_left ht]
  rfl

/-- A well-bracketed text may be put in anywhere. -/
theorem WellBracketed.between (h : WellBracketed (s ++ t)) (hu : WellBracketed u) :
    WellBracketed (s ++ u ++ t) := by
  rw [WellBracketed, String.toList_append] at h
  rw [WellBracketed, String.append_assoc, String.toList_append, String.toList_append]
  exact Nested.between h hu

theorem wellBracketed_join {texts : List String} (h : ∀ text ∈ texts, WellBracketed text) :
    WellBracketed (String.join texts) := by
  induction texts with
  | nil => exact Nested.nil
  | cons text rest ih =>
    obtain ⟨htext, hrest⟩ := List.forall_mem_cons.mp h
    rw [String.join_cons]
    exact htext.append (ih hrest)

theorem wellBracketed_intercalate (hs : WellBracketed s) {texts : List String}
    (h : ∀ text ∈ texts, WellBracketed text) : WellBracketed (s.intercalate texts) := by
  induction texts with
  | nil => exact Nested.nil
  | cons text rest ih =>
    obtain ⟨htext, hrest⟩ := List.forall_mem_cons.mp h
    cases rest with
    | nil => rwa [String.intercalate_singleton]
    | cons next rest =>
      rw [String.intercalate_cons_cons]
      exact (htext.append hs).append (ih hrest)

/-- A star in front of a type is no bracket. -/
theorem wellBracketed_removeBeginning_iff :
    WellBracketed (removeBeginning s "*") ↔ WellBracketed s := by
  have hstar : "*".toList = ['*'] := rfl
  rw [removeBeginning, onChars, hstar, dropBeginning]
  by_cases hprefix : ['*'].isPrefixOf s.toList = true
  · obtain ⟨rest, hrest⟩ := List.isPrefixOf_iff_prefix.mp hprefix
    have hs : s = "*" ++ String.ofList rest := by
      rw [← String.toList_inj, ← hrest, String.toList_append, hstar, String.toList_ofList]
    rw [if_pos hprefix, hs, wellBracketed_append_iff_right (by decide)]
    simp [hstar]
  · rw [if_neg hprefix, String.ofList_toList]

/-! ## Characters of comments -/

/-- The lower case of a character that is no bracket has none in it. -/
theorem plain_lowerChar {c : Char} (hc : isBracket c = false) : Plain (lowerChar c) := by
  intro d hd
  by_contra hbracket
  rw [Bool.not_eq_false] at hbracket
  have hsame : d = c := by
    have hmem := mem_brackets hbracket
    simp only [brackets, List.mem_cons, List.not_mem_nil, or_false] at hmem
    -- No run of capitals leads to a bracket.
    have hcapital : c = d ∨ c = d := by
      rcases hmem with rfl | rfl | rfl | rfl | rfl | rfl <;>
      exact eq_or_eq_of_mem_lowerChar (by decide) (by decide +kernel) hd
    exact (or_self_iff.mp hcapital).symm
  rw [hsame, hc] at hbracket
  cases hbracket

/-! ## Quoted texts -/

theorem plain_hex (width n : Nat) : Plain (hex width n) := by
  have hdigit : ∀ m < 16, isBracket (hexDigit m) = false := by decide
  induction width generalizing n with
  | zero => exact plain_nil
  | succ width ih => exact (ih _).append (plain_nil.cons (hdigit _ (Nat.mod_lt n (by decide))))

/-- An escape has no bracket in it. -/
theorem plain_quotedChar {c : Char} (quote : Char) (hc : isBracket c = false) :
    Plain (quotedChar quote c) := by
  have hmark : ∀ {mark : Char} {rest : List Char}, isBracket mark = false → Plain rest →
      Plain ('\\' :: mark :: rest) :=
    fun hmark hrest ↦ (hrest.cons hmark).cons rfl
  unfold quotedChar
  split_ifs
  · exact hmark hc plain_nil
  · exact hmark rfl plain_nil
  · exact hmark rfl plain_nil
  · exact hmark rfl plain_nil
  · exact plain_nil.cons hc
  · exact hmark rfl (plain_hex _ _)
  · exact hmark rfl (plain_hex _ _)
  · exact hmark rfl (plain_hex _ _)

theorem bracketFree_quoted (h : BracketFree s) : BracketFree (quoted s) := by
  have hquote : isBracket (quoteFor s.toList) = false := by
    unfold quoteFor
    split <;> rfl
  rw [BracketFree, quoted, String.toList_ofList]
  refine .append (.cons hquote fun c hc ↦ ?_) (plain_nil.cons hquote)
  obtain ⟨d, hd, hc⟩ := List.mem_flatMap.mp hc
  exact plain_quotedChar _ (h d hd) c hc

/-- A list of texts is shown between brackets. -/
theorem wellBracketed_quotedList {texts : List String} (h : ∀ text ∈ texts, BracketFree text) :
    WellBracketed (quotedList texts) := by
  refine .between (by decide) (wellBracketed_intercalate (by decide) ?_)
  exact List.forall_mem_map.mpr fun text htext ↦ (bracketFree_quoted (h text htext)).wellBracketed

end Text

namespace Comment

open Text

/-- A comment has its marks and blanks in it, and characters of its text. -/
theorem mem_formatChars {c : Char} {indent : Nat} {wrap : Bool} {cs : List Char}
    (h : c ∈ formatChars indent wrap cs) : c ∈ "\t/ \n".toList ∨ c ∈ cs := by
  obtain ⟨line, hline, hc⟩ := List.mem_flatMap.mp h
  obtain ⟨paragraph, hparagraph, hline⟩ := List.mem_flatMap.mp hline
  rcases List.mem_append.mp hc with hkept | hfeed
  · rcases List.mem_append.mp ((stripRight_isPrefix _).subset hkept) with hmargin | htext
    · rcases List.mem_append.mp hmargin with htab | hmark
      · exact .inl (List.eq_of_mem_replicate htab ▸ List.mem_cons_self)
      · simp only [List.mem_cons, List.not_mem_nil, or_false] at hmark
        rcases hmark with rfl | rfl | rfl <;> exact .inl (by decide)
    · rcases mem_of_mem_paragraphLines hline htext with rfl | hmem
      · exact .inl (by decide)
      · exact .inr ((infix_of_mem_splitLines hparagraph).subset hmem)
  · obtain rfl := List.mem_singleton.mp hfeed
    exact .inl (by decide)

theorem bracketFree_partComment {text : String} (h : BracketFree text) :
    BracketFree (partComment text) := by
  intro c hc
  rw [partComment, toList_onChars] at hc
  rcases mem_formatChars hc with hmark | hmem
  · have hmarks : BracketFree "\t/ \n" := by decide
    exact hmarks c hmark
  · exact h c hmem

section

variable {cs : List Char} (h : Plain cs)

include h

theorem plain_lowerFirst : Plain (lowerFirst cs) := by
  cases cs with
  | nil => exact h
  | cons c rest =>
    obtain ⟨hc, hrest⟩ := List.forall_mem_cons.mp h
    rw [lowerFirst, List.take_succ_cons, List.take_zero, lower_singleton]
    exact (plain_lowerChar hc).append hrest

theorem plain_linked (link : Link) : Plain (linked cs link) := by
  have hbehind : Plain (dropBeginning "this ".toList cs) :=
    fun c hc ↦ h c ((dropBeginning_suffix _ cs).subset hc)
  unfold linked
  split
  · generalize dropBeginning "this ".toList cs = behind at hbehind
    unfold lowerUnlessAcronym
    split
    · split
      · exact hbehind
      · exact plain_lowerFirst hbehind
    · exact plain_lowerFirst hbehind
  · exact plain_lowerFirst h

end

/-- A sentence has a bracket only if the name or the description has. -/
theorem bracketFree_prose {name description subject : String} (hname : BracketFree name)
    (h : BracketFree description) : BracketFree (prose name description subject) := by
  have hbody : Plain (dropArticle (strip description.toList)) :=
    fun c hc ↦ h c ((strip_isInfix _).subset ((dropArticle_suffix _).subset hc))
  have hseparator : ∀ link : Link, BracketFree link.separator := by
    intro link
    cases link <;> decide
  rw [BracketFree, prose, String.toList_ofList]
  unfold proseChars
  dsimp only
  split
  · exact plain_nil
  generalize Comment.link subject.toList (dropArticle (strip description.toList)) = link
  have hsentence : Plain (name.toList ++ link.separator.toList ++
      linked (dropArticle (strip description.toList)) link) :=
    .append (.append hname (hseparator link)) (plain_linked hbody link)
  unfold addStop
  split
  · exact hsentence
  · exact hsentence.append (plain_nil.cons rfl)

end Comment

end SchemaTypes
