import SchemaTypes.Json.Parser
import SchemaTypes.Proofs.Elements
import SchemaTypes.Proofs.Text.Order

/-!
# Decoded values

A value that is decoded from a text has no key twice in an object, and its numbers are numbers, the
infinities or the one value that is none (`Json.Decoded`, `Json.decoded_of_parse`).

Two values that differ at most in the order of object members (`Json.Rearranged`) stand for the same
thing wherever members are found by their keys.
-/

namespace SchemaTypes

namespace Json

/-- A value as it is decoded from a text. -/
inductive Decoded : Json → Prop
  | null : Decoded .null
  | bool (b : Bool) : Decoded (.bool b)
  | int (n : Int) : Decoded (.int n)
  | real {x : Number.Binary64} : (x.isNaN → x = .nan) → Decoded (.real x)
  | text (s : String) : Decoded (.text s)
  | list {items : List Json} : (∀ item ∈ items, Decoded item) → Decoded (.list items)
  | object {members : List (String × Json)} :
      (Entries.names members).Nodup → (∀ m ∈ members, Decoded m.2) → Decoded (.object members)

theorem decoded_list_iff {items : List Json} :
    Decoded (.list items) ↔ ∀ item ∈ items, item.Decoded := by
  constructor
  · rintro (_ | _ | _ | _ | _ | h | _)
    exact h
  · exact .list

theorem decoded_object_iff {members : List (String × Json)} :
    Decoded (.object members) ↔
      (Entries.names members).Nodup ∧ ∀ m ∈ members, m.2.Decoded := by
  constructor
  · rintro (_ | _ | _ | _ | _ | _ | ⟨hnodup, h⟩)
    exact ⟨hnodup, h⟩
  · rintro ⟨hnodup, h⟩
    exact .object hnodup h

attribute [simp] Decoded.null Decoded.bool Decoded.int Decoded.text decoded_list_iff
  decoded_object_iff

/-- Two values differ at most in the order of the members of objects. -/
inductive Rearranged : Json → Json → Prop
  | null : Rearranged .null .null
  | bool (b : Bool) : Rearranged (.bool b) (.bool b)
  | int (n : Int) : Rearranged (.int n) (.int n)
  | real (x : Number.Binary64) : Rearranged (.real x) (.real x)
  | text (s : String) : Rearranged (.text s) (.text s)
  | list {items others : List Json} :
      items.length = others.length → (∀ p ∈ items.zip others, Rearranged p.1 p.2) →
        Rearranged (.list items) (.list others)
  | object {members others : List (String × Json)} :
      (Entries.names members).Perm (Entries.names others) →
        (∀ key value other, (key, value) ∈ members → (key, other) ∈ others →
          Rearranged value other) →
        Rearranged (.object members) (.object others)

namespace Rearranged

theorem list_iff {items others : List Json} :
    Rearranged (.list items) (.list others) ↔ List.Forall₂ Rearranged items others := by
  rw [List.forall₂_iff_zip]
  constructor
  · rintro (_ | _ | _ | _ | _ | ⟨hlength, h⟩ | _)
    exact ⟨hlength, fun hab ↦ h _ hab⟩
  · rintro ⟨hlength, h⟩
    exact .list hlength fun p hp ↦ h hp

theorem object_iff {members others : List (String × Json)} :
    Rearranged (.object members) (.object others) ↔
      (Entries.names members).Perm (Entries.names others) ∧
        ∀ key value other, (key, value) ∈ members → (key, other) ∈ others →
          Rearranged value other := by
  constructor
  · rintro (_ | _ | _ | _ | _ | _ | ⟨hnames, h⟩)
    exact ⟨hnames, h⟩
  · rintro ⟨hnames, h⟩
    exact .object hnames h

theorem bool_iff {b c : Bool} : Rearranged (.bool b) (.bool c) ↔ b = c := by
  constructor
  · rintro (_ | _ | _ | _ | _ | _ | _)
    rfl
  · rintro rfl
    exact .bool b

theorem text_iff {s t : String} : Rearranged (.text s) (.text t) ↔ s = t := by
  constructor
  · rintro (_ | _ | _ | _ | _ | _ | _)
    rfl
  · rintro rfl
    exact .text s

/-- Whether a value says something does not depend on the order of members. -/
theorem isVoid_eq {value other : Json} (h : Rearranged value other) :
    value.isVoid = other.isVoid := by
  cases h with
  | @list items others hlength _ =>
    rw [isVoid, isVoid, Bool.eq_iff_iff, List.isEmpty_iff_length_eq_zero,
      List.isEmpty_iff_length_eq_zero, hlength]
  | @object members others hnames _ =>
    have hlength : members.length = others.length := by simpa [Entries.names] using hnames.length_eq
    rw [isVoid, isVoid, Bool.eq_iff_iff, List.isEmpty_iff_length_eq_zero,
      List.isEmpty_iff_length_eq_zero, hlength]
  | _ => rfl

end Rearranged

/-! ## What is decoded -/

open Number in
theorem decoded_ofMagnitude (negative : Bool) {magnitude : Nat}
    (h : magnitude ≤ Binary64.infinityBits) :
    Decoded (.real (.ofMagnitude negative magnitude)) := by
  have hkept : (Binary64.ofMagnitude negative magnitude).magnitude = magnitude := by
    have hbound : Binary64.infinityBits < 2 ^ 63 := by decide
    simp only [Binary64.magnitude, Binary64.ofMagnitude, UInt64.toNat_ofNat', Nat.pow_eq]
    split <;> omega
  refine .real fun hnan ↦ ?_
  rw [Binary64.isNaN, hkept, decide_eq_true_eq] at hnan
  omega

open Number in
theorem decoded_ofDecimal (negative : Bool) (digits : Nat) (exponent : Int) :
    Decoded (.real (.ofDecimal negative digits exponent)) := by
  have hnearest : ∀ num den, Binary64.nearestBits num den ≤ Binary64.infinityBits := by
    intro num den
    unfold Binary64.nearestBits
    split
    · exact Nat.zero_le _
    · exact Nat.min_le_left _ _
  unfold Binary64.ofDecimal
  split
  · exact decoded_ofMagnitude negative (Nat.zero_le _)
  · split
    · exact decoded_ofMagnitude negative (Nat.le_refl _)
    · exact decoded_ofMagnitude negative (hnearest _ _)

theorem decoded_number {negative : Bool} {cs rest : List Char} {value : Json}
    (h : Parser.number negative cs = .ok (value, rest)) : value.Decoded := by
  unfold Parser.number at h
  dsimp only at h
  split at h
  · cases h
  · split at h
    · split at h
      · cases h
      · cases h
        exact .int _
    · cases h
      exact decoded_ofDecimal _ _ _

/-- An object has one member for each key. -/
theorem decoded_ofMembers {members : List (String × Json)} (h : ∀ m ∈ members, m.2.Decoded) :
    (ofMembers members).Decoded := by
  have hnodup := Entries.nodup_names_ofList members
  refine .object hnodup fun m hm ↦ h m ?_
  exact Entries.mem_of_lookup_ofList ((Entries.lookup_eq_some_iff_mem hnodup).mpr hm)

/-- Each part of the descent decodes values if it goes no deeper than so many steps. -/
structure DecodesWithin (fuel : Nat) : Prop where
  value : ∀ {cs value rest}, Parser.value fuel cs = .ok (value, rest) → value.Decoded
  listItems : ∀ {before cs value rest}, (∀ item ∈ before, item.Decoded) →
    Parser.listItems fuel before cs = .ok (value, rest) → value.Decoded
  objectMembers : ∀ {before cs value rest}, (∀ m ∈ before, m.2.Decoded) →
    Parser.objectMembers fuel before cs = .ok (value, rest) → value.Decoded

namespace DecodesWithin

variable {fuel : Nat} {cs rest : List Char} {value : Json}

theorem value_succ (hfuel : DecodesWithin fuel)
    (h : Parser.value (fuel + 1) cs = .ok (value, rest)) : value.Decoded := by
  rw [Parser.value] at h
  split at h
  · split at h
    · cases h
      exact .text _
    · cases h
  · split at h
    · cases h
      exact .object .nil (List.forall_mem_nil _)
    · exact hfuel.objectMembers (List.forall_mem_nil _) h
  · split at h
    · cases h
      exact .list (List.forall_mem_nil _)
    · exact hfuel.listItems (List.forall_mem_nil _) h
  · cases h; exact .null
  · cases h; exact .bool true
  · cases h; exact .bool false
  · cases h; exact .real fun _ ↦ rfl
  · cases h; exact decoded_ofMagnitude _ (Nat.le_refl _)
  · cases h; exact decoded_ofMagnitude _ (Nat.le_refl _)
  · exact decoded_number h
  · exact decoded_number h

theorem listItems_succ (hfuel : DecodesWithin fuel) {before : List Json}
    (hbefore : ∀ item ∈ before, item.Decoded)
    (h : Parser.listItems (fuel + 1) before cs = .ok (value, rest)) : value.Decoded := by
  rw [Parser.listItems] at h
  obtain ⟨⟨item, behind⟩, hitem, h⟩ := exists_of_bind_eq_ok h
  have hitems : ∀ i ∈ item :: before, i.Decoded :=
    List.forall_mem_cons.mpr ⟨hfuel.value hitem, hbefore⟩
  dsimp only at h
  split at h
  · exact hfuel.listItems hitems h
  · cases h
    exact .list fun i hi ↦ hitems i (List.mem_reverse.mp hi)
  · cases h

theorem objectMembers_succ (hfuel : DecodesWithin fuel) {before : List (String × Json)}
    (hbefore : ∀ m ∈ before, m.2.Decoded)
    (h : Parser.objectMembers (fuel + 1) before cs = .ok (value, rest)) : value.Decoded := by
  rw [Parser.objectMembers] at h
  split at h
  · split at h
    · cases h
    · next key _ _ =>
      split at h
      · obtain ⟨⟨item, behind⟩, hitem, h⟩ := exists_of_bind_eq_ok h
        have hmembers : ∀ m ∈ (key, item) :: before, m.2.Decoded :=
          List.forall_mem_cons.mpr ⟨hfuel.value hitem, hbefore⟩
        dsimp only at h
        split at h
        · exact hfuel.objectMembers hmembers h
        · cases h
          exact decoded_ofMembers fun m hm ↦ hmembers m (List.mem_reverse.mp hm)
        · cases h
      · cases h
  · cases h

end DecodesWithin

/-- However deep the descent goes, it decodes values. The induction is on the steps that are left,
since each part calls the others with one less. -/
theorem decodesWithin (fuel : Nat) : DecodesWithin fuel := by
  induction fuel with
  | zero =>
    refine ⟨fun h ↦ ?_, fun _ h ↦ ?_, fun _ h ↦ ?_⟩
    · rw [Parser.value] at h
      cases h
    · rw [Parser.listItems] at h
      cases h
    · rw [Parser.objectMembers] at h
      cases h
  | succ fuel ih => exact ⟨ih.value_succ, ih.listItems_succ, ih.objectMembers_succ⟩

/-- **What is decoded from a text has no key twice in an object**, and one value at most that is no
number. -/
theorem decoded_of_parse {s : String} {value : Json} (h : parse s = .ok value) : value.Decoded := by
  rw [parse] at h
  obtain ⟨⟨json, rest⟩, hjson, h⟩ := exists_of_bind_eq_ok h
  dsimp only at h
  split at h
  · cases h
    exact (decodesWithin _).value hjson
  · cases h

end Json

end SchemaTypes
