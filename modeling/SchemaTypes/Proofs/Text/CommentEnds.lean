import Mathlib.Data.List.Infix
import SchemaTypes.Declaration.Block
import SchemaTypes.Json.Literal
import SchemaTypes.Proofs.Text.Stretches

/-!
# Ends of remarks

A remark between `/*` and `*/` ends where `*/` first stands, whoever has written it. A placeholder
is closed where it should be exactly if its remark is free of that mark
(`Text.isClosed_placeholder_iff`).

What a remark is put together of has the mark only if one of the parts has it: no mark comes up
where texts are joined by blanks and commas, and none when they are quoted, for neither of its
characters is escaped and no escape has one of them.
-/

namespace SchemaTypes.Text

open Declaration

/-- A text has the mark that ends a remark. -/
def EndsRemark (s : String) : Prop := Contains "*/" s

instance (s : String) : Decidable (EndsRemark s) := inferInstanceAs (Decidable (Contains _ _))

/-- The mark that ends a remark stands only where the remark of a placeholder ends, before the brace
that closes the type. -/
def IsClosed (text : String) : Prop :=
  ∀ before behind : String, text = before ++ "*/" ++ behind → behind = " \x7d"

/-! ## Marks in joined texts -/

section

variable {w a b s : List Char}

/-- A stretch does not go over a text that has no character of it. -/
theorem infix_append_append_iff (hs : s ≠ []) (h : ∀ c ∈ s, c ∉ w) :
    w <:+: a ++ (s ++ b) ↔ w <:+: a ∨ w <:+: b := by
  induction s generalizing a with
  | nil => exact absurd rfl hs
  | cons c rest ih =>
    obtain ⟨hc, hrest⟩ := List.forall_mem_cons.mp h
    rw [List.cons_append, infix_append_cons_iff hc]
    cases rest with
    | nil => rw [List.nil_append]
    | cons d rest =>
      have hbehind := ih (a := []) (List.cons_ne_nil d rest) hrest
      rw [List.nil_append] at hbehind
      rw [hbehind]
      have hnil : w <:+: [] → w <:+: a := fun hw ↦ hw.trans List.nil_infix
      exact ⟨fun hw ↦ hw.elim .inl fun hw ↦ hw.imp_left hnil, fun hw ↦ hw.imp_right .inr⟩

/-- A stretch stands between two texts that have no character of it. -/
theorem infix_between_iff {t : List Char} (hw : w ≠ []) (hs : ∀ c ∈ s, c ∉ w)
    (ht : ∀ c ∈ t, c ∉ w) : w <:+: s ++ (a ++ t) ↔ w <:+: a := by
  have hnil : ¬ w <:+: [] := fun h ↦ hw (List.infix_nil.mp h)
  have hclose : w <:+: a ++ t ↔ w <:+: a := by
    rcases t.eq_nil_or_concat' with rfl | ⟨t, c, rfl⟩
    · rw [List.append_nil]
    · have hne : t ++ [c] ≠ [] := List.concat_ne_nil c t
      rw [← List.append_nil (t ++ [c]), infix_append_append_iff hne ht, or_iff_left hnil]
  rcases s with _ | ⟨c, s⟩
  · exact hclose
  · have hopen := infix_append_append_iff (a := []) (b := a ++ t) (List.cons_ne_nil c s) hs
    rw [← hclose, ← or_iff_right (b := w <:+: a ++ t) hnil, ← hopen, List.nil_append]

/-- Where a stretch stands in two texts with a character between them that is not in it, it stands
in one of them, and what is before it in the second one can be told. -/
theorem infix_or_exists_of_append_eq {c : Char} {x y : List Char} (hc : c ∉ w) (hw : w ≠ [])
    (h : a ++ (w ++ b) = x ++ c :: y) : w <:+: x ∨ ∃ a', a' ++ (w ++ b) = y := by
  rcases List.append_eq_append_iff.mp h with ⟨front, rfl, hrest⟩ | ⟨behind, rfl, hrest⟩
  · have hprefix : w <+: front ++ c :: y := ⟨b, hrest⟩
    exact .inl ((prefix_of_prefix_append_cons hc hprefix).isInfix.trans
      (List.suffix_append a front).isInfix)
  · cases behind with
    | nil =>
      obtain ⟨d, w, rfl⟩ := List.exists_cons_of_ne_nil hw
      obtain ⟨rfl, -⟩ := List.cons.inj hrest
      exact absurd List.mem_cons_self hc
    | cons d behind =>
      obtain ⟨-, hy⟩ := List.cons.inj hrest
      exact .inr ⟨behind, hy.symm⟩

/-- A mark of two characters is kept where each character is written for itself, as long as neither
the one nor the other comes up for anything else. -/
theorem pair_infix_flatMap_iff {f : Char → List Char} {x y : Char} (hx : f x = [x]) (hy : f y = [y])
    (hbefore : ∀ c, c ≠ x → x ∉ f c) (hbehind : ∀ c, c ≠ y → ∃ d rest, f c = d :: rest ∧ d ≠ y)
    {cs : List Char} : [x, y] <:+: cs.flatMap f ↔ [x, y] <:+: cs := by
  have hhead : ∀ cs : List Char, [y] <+: cs.flatMap f ↔ [y] <+: cs := by
    intro cs
    cases cs with
    | nil => rfl
    | cons c rest =>
      rw [List.flatMap_cons]
      by_cases hc : c = y
      · rw [hc, hy]
        simp
      · obtain ⟨d, more, hf, hd⟩ := hbehind c hc
        rw [hf, List.cons_append, List.cons_prefix_cons, List.cons_prefix_cons]
        exact iff_of_false (fun h ↦ hd h.1.symm) fun h ↦ hc h.1.symm
  induction cs with
  | nil => rfl
  | cons c rest ih =>
    rw [List.flatMap_cons, List.infix_cons_iff]
    by_cases hc : c = x
    · rw [hc, hx, List.singleton_append, List.infix_cons_iff, List.cons_prefix_cons,
        List.cons_prefix_cons, hhead]
      exact or_congr_right ih
    · have hprefix : ¬ [x, y] <+: c :: rest := fun h ↦ hc (List.cons_prefix_cons.mp h).1.symm
      rw [or_iff_right hprefix]
      refine Iff.trans ⟨infix_of_infix_append (hbefore c hc), fun h ↦ ?_⟩ ih
      exact h.trans (List.suffix_append _ _).isInfix

end

/-! ## Marks in lists of texts -/

section

variable {word separator : String}

theorem contains_append_append_iff {a b : String} (hs : separator ≠ "")
    (h : ∀ c ∈ separator.toList, c ∉ word.toList) :
    Contains word (a ++ separator ++ b) ↔ Contains word a ∨ Contains word b := by
  rw [Contains, String.toList_append, String.toList_append, List.append_assoc]
  exact infix_append_append_iff (fun hnil ↦ hs (String.toList_inj.mp hnil)) h

theorem contains_intercalate_iff (hword : word ≠ "") (hs : separator ≠ "")
    (h : ∀ c ∈ separator.toList, c ∉ word.toList) {texts : List String} :
    Contains word (separator.intercalate texts) ↔ ∃ text ∈ texts, Contains word text := by
  induction texts with
  | nil =>
    rw [String.intercalate_nil]
    refine iff_of_false (fun hnil ↦ hword ?_) (by rintro ⟨_, ⟨⟩, -⟩)
    exact String.toList_inj.mp (List.infix_nil.mp hnil)
  | cons text rest ih =>
    cases rest with
    | nil => simp
    | cons next rest =>
      rw [String.intercalate_cons_cons, contains_append_append_iff hs h, ih,
        List.exists_mem_cons_iff (l := next :: rest)]

end

theorem endsRemark_intercalate_iff {texts : List String} :
    EndsRemark (" ".intercalate texts) ↔ ∃ text ∈ texts, EndsRemark text :=
  contains_intercalate_iff (by decide) (by decide) (by simp)

/-! ## Marks in quoted texts -/

theorem not_mem_hex {c : Char} (hc : ∀ n < 16, hexDigit n ≠ c) (width n : Nat) :
    c ∉ hex width n := by
  induction width generalizing n with
  | zero => exact List.not_mem_nil
  | succ width ih =>
    rw [hex, List.mem_append, List.mem_singleton, not_or]
    exact ⟨ih (n / 16), fun h ↦ hc (n % 16) (Nat.mod_lt n (by decide)) h.symm⟩

/-- Neither quote changes the characters of the mark. -/
theorem quotedChar_mark {quote c : Char} (hquote : quote = '\'' ∨ quote = '"')
    (hc : c = '*' ∨ c = '/') : quotedChar quote c = [c] := by
  rcases hquote with rfl | rfl <;> rcases hc with rfl | rfl <;> decide +kernel

/-- What is written for another character has neither character of the mark. -/
theorem not_mem_quotedChar {quote c d : Char} (hd : d = '*' ∨ d = '/') (hc : c ≠ d) :
    d ∉ quotedChar quote c := by
  have hslash : d ≠ '\\' ∧ d ≠ 'n' ∧ d ≠ 'r' ∧ d ≠ 't' ∧ d ≠ 'x' ∧ d ≠ 'u' ∧ d ≠ 'U' := by
    rcases hd with rfl | rfl <;> decide
  have hhex : ∀ width n, d ∉ hex width n := fun width n ↦
    not_mem_hex (by rcases hd with rfl | rfl <;> decide) width n
  unfold quotedChar
  split_ifs <;> simp [hslash, hhex, hc.symm]

theorem exists_quotedChar_eq_cons (quote c : Char) :
    ∃ d rest, quotedChar quote c = d :: rest := by
  unfold quotedChar
  split_ifs <;> exact ⟨_, _, rfl⟩

theorem endsRemark_quoted_iff {s : String} : EndsRemark (quoted s) ↔ EndsRemark s := by
  have hquote : quoteFor s.toList = '\'' ∨ quoteFor s.toList = '"' := by
    unfold quoteFor
    split
    · exact .inr rfl
    · exact .inl rfl
  generalize hq : quoteFor s.toList = quote at hquote
  have hfree : quote ∉ ['*', '/'] := by
    rcases hquote with rfl | rfl <;> decide
  have hbody : ['*', '/'] <:+: s.toList.flatMap (quotedChar quote) ↔ ['*', '/'] <:+: s.toList := by
    refine pair_infix_flatMap_iff (quotedChar_mark hquote (.inl rfl))
      (quotedChar_mark hquote (.inr rfl)) (fun c hc ↦ not_mem_quotedChar (.inl rfl) hc)
      fun c hc ↦ ?_
    obtain ⟨d, rest, hd⟩ := exists_quotedChar_eq_cons quote c
    refine ⟨d, rest, hd, ?_⟩
    rintro rfl
    exact not_mem_quotedChar (.inr rfl) hc (hd ▸ List.mem_cons_self)
  have hsides : ∀ c ∈ [quote], c ∉ ['*', '/'] := List.forall_mem_singleton.mpr hfree
  change ['*', '/'] <:+: (quoted s).toList ↔ ['*', '/'] <:+: s.toList
  rw [quoted, String.toList_ofList, hq, ← hbody]
  exact infix_between_iff (List.cons_ne_nil _ _) hsides hsides

/-- The brackets around a list and the commas in it are no part of the mark, either. -/
theorem endsRemark_quotedList_iff {texts : List String} :
    EndsRemark (quotedList texts) ↔ ∃ text ∈ texts, EndsRemark text := by
  have hitems : EndsRemark (", ".intercalate (texts.map quoted)) ↔
      ∃ text ∈ texts.map quoted, EndsRemark text :=
    contains_intercalate_iff (by decide) (by decide) (by simp)
  have hlist :
      EndsRemark (quotedList texts) ↔ EndsRemark (", ".intercalate (texts.map quoted)) := by
    rw [EndsRemark, Contains, quotedList, String.toList_append, String.toList_append,
      List.append_assoc]
    exact infix_between_iff (by simp) (by simp) (by simp)
  rw [hlist, hitems]
  simp only [List.mem_map, exists_exists_and_eq_and, endsRemark_quoted_iff]

/-! ## Placeholders -/

/-- **A placeholder is closed where it should be** exactly if its remark has no mark in it. -/
theorem isClosed_placeholder_iff {remark : String} :
    IsClosed (placeholder remark) ↔ ¬ EndsRemark remark := by
  have hmark : "*/".toList = ['*', '/'] := by simp
  constructor
  · rintro hclosed ⟨a, b, hremark⟩
    -- Too much is left behind a mark within the remark.
    have htext : placeholder remark = "struct\x7b /* " ++ String.ofList a ++ "*/" ++
        (String.ofList b ++ " */ \x7d") := by
      rw [← String.toList_inj, placeholder]
      simp [← hremark]
    have hbehind := hclosed _ _ htext
    have hlength := congrArg (fun s ↦ s.toList.length) hbehind
    simp at hlength
  · intro hfree before behind htext
    have hchars : before.toList ++ (['*', '/'] ++ behind.toList) =
        ("struct\x7b /*".toList ++ ' ' :: remark.toList) ++ ' ' :: "*/ \x7d".toList := by
      have h := congrArg String.toList htext
      simp [placeholder] at h
      simp [← h]
    have hblank : ' ' ∉ ['*', '/'] := by decide
    rcases infix_or_exists_of_append_eq hblank (List.cons_ne_nil _ _) hchars with
      hinside | ⟨a, hend⟩
    · rcases (infix_append_cons_iff hblank).mp hinside with hopen | hremark
      · exact absurd hopen (by decide)
      · rw [← hmark] at hremark
        exact absurd hremark hfree
    · have hcode : "*/ \x7d".toList = ['*', '/', ' ', '\x7d'] := by simp
      rw [hcode] at hend
      rcases a with _ | ⟨c, a⟩
      · rw [← String.toList_inj]
        simpa using hend
      · have hstar : '*' ∈ ['/', ' ', '\x7d'] := by
          rw [← (List.cons.inj hend).2]
          simp
        exact absurd hstar (by decide)

end SchemaTypes.Text
