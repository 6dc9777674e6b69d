import Mathlib
import SchemaTypes.Proofs.Identifier.Letters
import SchemaTypes.Text.Affix

/-!
# Words with a point in texts

The members of a package are named by words with a point inside, such as `time.Time`. Such a word
stands in a text that is put together of others only if it stands in one of them, as long as it
cannot go over a seam (`Text.IsDotted.infix_append_iff`): a character at the seam is no part of a
word (`Text.Parted`). Texts without a point hold no such word.
-/

namespace SchemaTypes

namespace Text

/-! ## Stretches of characters -/

theorem prefix_of_prefix_append_cons {c : Char} {w a b : List Char} (hc : c ∉ w)
    (h : w <+: a ++ c :: b) : w <+: a := by
  induction a generalizing w with
  | nil =>
    cases w with
    | nil => exact List.prefix_rfl
    | cons d w =>
      obtain ⟨rfl, -⟩ := List.cons_prefix_cons.mp h
      exact absurd List.mem_cons_self hc
  | cons e a ih =>
    cases w with
    | nil => exact List.nil_prefix
    | cons d w =>
      obtain ⟨rfl, hrest⟩ := List.cons_prefix_cons.mp h
      exact List.cons_prefix_cons.mpr ⟨rfl, ih (fun hmem ↦ hc (List.mem_cons_of_mem _ hmem)) hrest⟩

/-- A stretch does not go over a character that is not in it. -/
theorem infix_append_cons_iff {c : Char} {w a b : List Char} (hc : c ∉ w) :
    w <:+: a ++ c :: b ↔ w <:+: a ∨ w <:+: b := by
  constructor
  · intro h
    induction a with
    | nil =>
      rcases List.infix_cons_iff.mp h with hprefix | hstretch
      · exact .inl (prefix_of_prefix_append_cons hc hprefix).isInfix
      · exact .inr hstretch
    | cons e a ih =>
      rcases List.infix_cons_iff.mp h with hprefix | hstretch
      · exact .inl (prefix_of_prefix_append_cons hc hprefix).isInfix
      · exact (ih hstretch).imp_left fun hleft ↦ hleft.trans (List.suffix_cons e a).isInfix
  · rintro (h | h)
    · exact h.trans (List.prefix_append _ _).isInfix
    · exact h.trans ((List.suffix_cons c b).trans (List.suffix_append a _)).isInfix

/-- A stretch begins behind the texts that do not have its first character. -/
theorem infix_of_infix_append {d : Char} {w a b : List Char} (hd : d ∉ a)
    (h : d :: w <:+: a ++ b) : d :: w <:+: b := by
  induction a with
  | nil => exact h
  | cons c a ih =>
    rw [List.mem_cons, not_or] at hd
    rcases List.infix_cons_iff.mp h with hprefix | hstretch
    · exact absurd (List.cons_prefix_cons.mp hprefix).1 hd.1
    · exact ih hd.2 hstretch

/-! ## Words -/

/-- A character that is no part of the name of a member of a package. The bracket in front of the
arguments of a type is taken for a part of its name. -/
def isBreak (c : Char) : Bool := c != '.' && c != '[' && !Identifier.isWordLetter c

/-- A word of letters with a point inside. -/
structure IsDotted (w : List Char) : Prop where
  dot : '.' ∈ w
  last : w.getLast? ≠ some '.'
  letters : ∀ c ∈ w, isBreak c = false

/-- No word with a point goes over the seam of two texts. -/
def Parted (a b : List Char) : Prop :=
  (∀ c ∈ a.getLast?, isBreak c = true) ∨ ∀ c ∈ b.head?, isBreak c = true

theorem parted_nil_left (b : List Char) : Parted [] b := .inl fun _ hc ↦ by cases hc

theorem parted_of_concat {c : Char} (hc : isBreak c = true) (a b : List Char) :
    Parted (a ++ [c]) b := by
  refine .inl fun d hd ↦ ?_
  rw [List.getLast?_concat, Option.mem_some_iff] at hd
  exact hd ▸ hc

theorem parted_of_cons {c : Char} (hc : isBreak c = true) (a b : List Char) :
    Parted a (c :: b) := by
  refine .inr fun d hd ↦ ?_
  rw [List.head?_cons, Option.mem_some_iff] at hd
  exact hd ▸ hc

namespace IsDotted

variable {w : List Char} (hw : IsDotted w)

include hw

theorem not_mem_of_isBreak {c : Char} (hc : isBreak c = true) : c ∉ w := by
  intro hmem
  rw [hw.letters c hmem] at hc
  cases hc

theorem not_infix_of_not_mem {cs : List Char} (h : '.' ∉ cs) : ¬ w <:+: cs :=
  fun hstretch ↦ h (hstretch.subset hw.dot)

theorem not_infix_nil : ¬ w <:+: [] := hw.not_infix_of_not_mem List.not_mem_nil

/-- A word stands in one of two texts if it cannot go over their seam. -/
theorem infix_append_iff {a b : List Char} (h : Parted a b) :
    w <:+: a ++ b ↔ w <:+: a ∨ w <:+: b := by
  rcases h with hlast | hhead
  · rcases a.eq_nil_or_concat' with rfl | ⟨a, c, rfl⟩
    · exact (or_iff_right hw.not_infix_nil).symm
    · have hc := hw.not_mem_of_isBreak (hlast c List.getLast?_concat)
      rw [List.append_assoc, List.singleton_append, infix_append_cons_iff hc,
        infix_append_cons_iff hc, or_iff_left hw.not_infix_nil]
  · cases b with
    | nil => rw [List.append_nil, or_iff_left hw.not_infix_nil]
    | cons c b =>
      have hc := hw.not_mem_of_isBreak (hhead c rfl)
      have hcons := infix_append_cons_iff (a := []) (b := b) hc
      rw [List.nil_append, or_iff_right hw.not_infix_nil] at hcons
      rw [infix_append_cons_iff hc, hcons]

/-- A full stop behind a text is no part of a word. -/
theorem infix_of_infix_stop {cs : List Char} (h : w <:+: cs ++ ['.']) : w <:+: cs := by
  rcases List.infix_concat_iff.mp h with hsuffix | hstretch
  · rcases List.suffix_concat_iff.mp hsuffix with rfl | ⟨t, rfl, -⟩
    · exact List.nil_infix
    · exact absurd List.getLast?_concat hw.last
  · exact hstretch

/-- In texts each of which ends where a word ends, a word stands in one of them. -/
theorem infix_flatten_iff {texts : List (List Char)}
    (h : ∀ text ∈ texts, ∀ c ∈ text.getLast?, isBreak c = true) :
    w <:+: texts.flatten ↔ ∃ text ∈ texts, w <:+: text := by
  induction texts with
  | nil => simp [hw.not_infix_nil]
  | cons text rest ih =>
    obtain ⟨htext, hrest⟩ := List.forall_mem_cons.mp h
    rw [List.flatten_cons, hw.infix_append_iff (.inl htext), ih hrest, List.exists_mem_cons_iff]

end IsDotted

/-! ## Texts -/

/-- A word occurs in a text. -/
def Contains (word text : String) : Prop := word.toList <:+: text.toList

instance (word text : String) : Decidable (Contains word text) :=
  decidable_of_iff _ isWithin_iff

theorem Contains.trans {a b c : String} (hab : Contains a b) (hbc : Contains b c) :
    Contains a c :=
  List.IsInfix.trans hab hbc

end Text

end SchemaTypes
