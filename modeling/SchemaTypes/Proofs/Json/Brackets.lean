import SchemaTypes.Proofs.Json.Canonical
import SchemaTypes.Proofs.Text.Brackets

/-!
# Brackets in the text of a value

Lists and objects are written between brackets. Whatever else is written of a value has brackets in
it only if a text in the value has, or the key of a member. So where these have none, the text of
the value is well bracketed (`Json.wellBracketed_write`).
-/

namespace SchemaTypes.Json

open Text

/-- All texts in a value have something in common, the keys of members among them. -/
inductive Throughout (P : String → Prop) : Json → Prop
  | null : Throughout P .null
  | bool (b : Bool) : Throughout P (.bool b)
  | int (n : Int) : Throughout P (.int n)
  | real (x : Number.Binary64) : Throughout P (.real x)
  | text {s : String} : P s → Throughout P (.text s)
  | list {items : List Json} : (∀ item ∈ items, Throughout P item) → Throughout P (.list items)
  | object {members : List (String × Json)} : (∀ m ∈ members, P m.1) →
      (∀ m ∈ members, Throughout P m.2) → Throughout P (.object members)

section

variable {P : String → Prop}

theorem throughout_text_iff {s : String} : Throughout P (.text s) ↔ P s := by
  constructor
  · rintro (_ | _ | _ | _ | h | _ | _)
    exact h
  · exact .text

theorem throughout_list_iff {items : List Json} :
    Throughout P (.list items) ↔ ∀ item ∈ items, item.Throughout P := by
  constructor
  · rintro (_ | _ | _ | _ | _ | h | _)
    exact h
  · exact .list

theorem throughout_object_iff {members : List (String × Json)} :
    Throughout P (.object members) ↔
      (∀ m ∈ members, P m.1) ∧ ∀ m ∈ members, m.2.Throughout P := by
  constructor
  · rintro (_ | _ | _ | _ | _ | _ | ⟨hkeys, h⟩)
    exact ⟨hkeys, h⟩
  · rintro ⟨hkeys, h⟩
    exact .object hkeys h

attribute [simp] Throughout.null Throughout.bool Throughout.int Throughout.real throughout_text_iff
  throughout_list_iff throughout_object_iff

end

theorem nested_commaSeparated {texts : List (List Char)} (h : ∀ text ∈ texts, Nested text) :
    Nested (commaSeparated texts) := by
  cases texts with
  | nil => exact .nil
  | cons text rest =>
    obtain ⟨htext, hrest⟩ := List.forall_mem_cons.mp h
    rw [commaSeparated_cons]
    refine htext.append ?_
    induction rest with
    | nil => exact .nil
    | cons next rest ih =>
      obtain ⟨hnext, hmore⟩ := List.forall_mem_cons.mp hrest
      rw [List.flatMap_cons]
      refine .append (.plain rfl (.plain rfl hnext)) (ih ?_ hmore)
      exact List.forall_mem_cons.mpr ⟨htext, hmore⟩

/-- An escape has no bracket in it. -/
theorem plain_stringChar {c : Char} (hc : isBracket c = false) : Plain (stringChar c) := by
  have hunit : ∀ unit, Plain (unitEscape unit) := fun unit ↦ ((plain_hex 4 unit).cons rfl).cons rfl
  have hform := writesChar_stringChar c
  generalize stringChar c = text at hform ⊢
  cases hform with
  | @letter e hletter =>
    have hletters : ∀ p ∈ letterEscapes, isBracket p.2 = false := by decide
    exact (plain_nil.cons (hletters _ hletter)).cons rfl
  | plain => exact plain_nil.cons hc
  | unit => exact hunit _
  | surrogates => exact (hunit _).append (hunit _)

theorem plain_stringText {s : String} (h : BracketFree s) : Plain (stringText s) := by
  refine .append (.cons rfl fun c hc ↦ ?_) (plain_nil.cons rfl)
  obtain ⟨d, hd, hc⟩ := List.mem_flatMap.mp hc
  exact plain_stringChar (h d hd) c hc

theorem isBracket_of_isDigit {c : Char} (h : c.isDigit = true) : isBracket c = false :=
  isBracket_of_isWordLetter (by simp [Identifier.isWordLetter, h])

/-- **The text of a value is well bracketed** if the texts in it have no brackets. -/
theorem nested_chars {value : Json} (h : value.Throughout BracketFree) (canonical : Bool) :
    Nested (value.chars canonical) := by
  induction h with
  | null =>
    rw [chars]
    decide
  | bool b =>
    rw [chars]
    cases b <;> decide
  | int n =>
    rw [chars]
    refine Plain.nested fun c hc ↦ ?_
    rcases isDigit_of_mem_toString hc with hdigit | rfl
    · exact isBracket_of_isDigit hdigit
    · rfl
  | real x =>
    rw [chars]
    refine Plain.nested fun c hc ↦ ?_
    have hmarks : BracketFree ".e+-InfinityNaN" := by decide
    rcases Number.Binary64.mem_text_cases hc with hdigit | hmark
    · exact isBracket_of_isDigit hdigit
    · exact hmarks c hmark
  | text hs =>
    rw [chars]
    exact (plain_stringText hs).nested
  | list _ ih =>
    rw [chars, itemChars_eq_map]
    exact .pair rfl (nested_commaSeparated (List.forall_mem_map.mpr ih)) .nil
  | @object members hkeys _ ih =>
    rw [chars, memberChars_eq_map]
    refine .pair rfl (nested_commaSeparated (List.forall_mem_map.mpr fun m hm ↦ ?_)) .nil
    -- The order of the members does not matter.
    have hmem : m ∈ members.map fun n ↦ (n.1, chars canonical n.2) := by
      dsimp only at hm
      split at hm
      · exact Text.mem_sortByName.mp hm
      · exact hm
    obtain ⟨n, hn, rfl⟩ := List.mem_map.mp hmem
    exact (plain_stringText (hkeys n hn)).nested.append (.plain rfl (.plain rfl (ih n hn)))

theorem wellBracketed_write {value : Json} (h : value.Throughout BracketFree) :
    WellBracketed value.write := by
  rw [WellBracketed, write, String.toList_ofList]
  exact nested_chars h false

end SchemaTypes.Json
