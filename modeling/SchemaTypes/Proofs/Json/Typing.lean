import SchemaTypes.Json.Mismatch
import SchemaTypes.Proofs.Elements

/-!
# Values of the expected type

What can be asked of a value that has the type it is meant to have, and of the elements of a list or
the members of an object that have theirs.
-/

namespace SchemaTypes

namespace Json

/-- A value that is a text. -/
def IsText (value : Json) : Prop := ∃ s, value = .text s

/-- A key that is a text. -/
def Key.IsText (key : Key) : Prop := ∃ s, key = .text s

/-- A list of whose elements something holds. -/
def IsList (P : Json → Prop) (value : Json) : Prop :=
  ∃ items, value = .list items ∧ ∀ i ∈ items, P i

/-- An object of whose members something holds. -/
def IsObject (P : List (String × Json) → Prop) (value : Json) : Prop :=
  ∃ members, value = .object members ∧ P members

/-- What holds of the value under a key, if there is one. -/
def Under (key : String) (P : Json → Prop) (members : List (String × Json)) : Prop :=
  ∀ value, members.lookup key = some value → P value

@[simp] theorem under_nil (key : String) (P : Json → Prop) : Under key P [] :=
  fun _ hvalue ↦ absurd hvalue nofun

@[simp] theorem under_cons {key name : String} {P : Json → Prop} {value : Json}
    {rest : List (String × Json)} :
    Under key P ((name, value) :: rest) ↔ if key = name then P value else Under key P rest := by
  rw [Under, List.lookup_cons]
  by_cases hname : key = name
  · simp [hname]
  · have hne : (key == name) = false := beq_false_of_ne hname
    rw [hne, if_neg hname]
    rfl

@[simp] theorem isText_text (s : String) : (text s).IsText := ⟨s, rfl⟩

theorem IsText.exists_textOr_eq_ok {value : Json} (h : value.IsText) (operation : String) :
    ∃ s, value.textOr operation = .ok s := by
  obtain ⟨s, rfl⟩ := h
  exact ⟨s, rfl⟩

/-- Only a text has the text of a text. -/
theorem eq_text_of_textOr_eq_ok {value : Json} {operation s : String}
    (h : value.textOr operation = .ok s) : value = .text s := by
  cases value <;> cases h
  rfl

/-- Texts can be joined. -/
theorem exists_joinable_eq_ok {items : List Json} (h : ∀ i ∈ items, i.IsText) (index : Nat) :
    ∃ texts, joinable index items = .ok texts := by
  induction items generalizing index with
  | nil => exact ⟨[], rfl⟩
  | cons item rest ih =>
    obtain ⟨⟨s, rfl⟩, hrest⟩ := List.forall_mem_cons.mp h
    obtain ⟨texts, htexts⟩ := ih hrest (index + 1)
    exact ⟨s :: texts, by rw [joinable, htexts]; rfl⟩

end Json

end SchemaTypes
