import SchemaTypes.Generation
import SchemaTypes.Proofs.Emission.Wording
import SchemaTypes.Proofs.Text.Literals

/-!
# Values of text constants

The value of a constant is written like any other value, as JSON. For a text this is a literal in
quotes, since every escape of a JSON string is one of a literal, too, with one exception: a
character beyond the basic plane is written as two surrogates, and neither is a character. So the
literal denotes the text exactly if the text stays within the basic plane, and is none at all
otherwise (`TypeExpression.text_constants_iff`).
-/

namespace SchemaTypes

open Literal

/-! ## Texts as literals -/

namespace Json

variable {cs : List Char} {bs : List UInt8}

/-- The escape of a code unit is that of a character, if the unit has one. -/
theorem spells_unitEscape_iff {unit : Nat} (h : unit < 0x10000) :
    Spells (unitEscape unit ++ cs) bs ↔ ∃ c rest,
      unit = Char.toNat c ∧ bs = String.utf8EncodeChar c ++ rest ∧ Spells cs rest := by
  have hdigits : numeral 16 (Text.hex 4 unit) = some unit := numeral_hex h
  rw [unitEscape, List.cons_append, List.cons_append, spells_short_iff (Text.length_hex 4 unit),
    hdigits]
  simp only [Option.some.injEq]

/-- What is written for a character stands for it, if it is one of the basic plane. Otherwise it is
written as two surrogates, which stand for nothing. -/
theorem spells_stringChar_iff (c : Char) : Spells (stringChar c ++ cs) bs ↔
    c.toNat < 0x10000 ∧ ∃ rest, bs = String.utf8EncodeChar c ++ rest ∧ Spells cs rest := by
  have hform := writesChar_stringChar c
  generalize stringChar c = text at hform ⊢
  cases hform with
  | @letter e hletter =>
    have hall : ∀ p ∈ letterEscapes, p.1.toNat < 0x10000 ∧
        ∃ b, letters.lookup p.2 = some b ∧ String.utf8EncodeChar p.1 = [b] := by
      simp only [letterEscapes, List.forall_mem_cons]
      decide
    obtain ⟨hsmall, b, hb, hbytes⟩ := hall (c, e) hletter
    rw [hbytes, and_iff_right hsmall]
    exact spells_letter_iff hb
  | plain hfree _ hhigh =>
    have hwritten : special ⊆ letterEscapes.map Prod.fst := by decide
    have hplain : c ∉ special := fun hmem ↦ hfree (hwritten hmem)
    rw [List.singleton_append, spells_plain_iff hplain, and_iff_right (by omega)]
  | unit hsmall =>
    rw [spells_unitEscape_iff hsmall, and_iff_right hsmall]
    constructor
    · rintro ⟨d, rest, hcode, rfl, h⟩
      rw [Char.toNat_inj.mp hcode]
      exact ⟨rest, rfl, h⟩
    · rintro ⟨rest, rfl, h⟩
      exact ⟨c, rest, rfl, rfl, h⟩
  | surrogates hlarge =>
    have hbound := toNat_lt c
    refine iff_of_false (fun h ↦ ?_) fun h ↦ absurd h.1 (Nat.not_lt.mpr hlarge)
    rw [List.append_assoc, spells_unitEscape_iff (by omega)] at h
    obtain ⟨d, -, hcode, -⟩ := h
    have hsurrogate := not_surrogate d
    omega

theorem spells_flatMap_stringChar_iff : Spells (cs.flatMap stringChar) bs ↔
    (∀ c ∈ cs, c.toNat < 0x10000) ∧ bs = bytes cs := by
  induction cs generalizing bs with
  | nil =>
    rw [List.flatMap_nil, spells_nil_iff]
    exact (and_iff_right fun c hc ↦ absurd hc List.not_mem_nil).symm
  | cons c cs ih =>
    rw [List.flatMap_cons, spells_stringChar_iff, List.forall_mem_cons, bytes_cons, and_assoc]
    simp only [ih]
    constructor
    · rintro ⟨hc, _, rfl, hcs, rfl⟩
      exact ⟨hc, hcs, rfl⟩
    · rintro ⟨hc, hcs, rfl⟩
      exact ⟨hc, _, rfl, hcs, rfl⟩

/-- A text has only characters of the basic plane. -/
def InBasicPlane (s : String) : Prop := ∀ c ∈ s.toList, c.toNat < 0x10000

/-- **A text is written as a literal for itself**, if it has only characters of the basic plane, and
otherwise it is not written as a literal. -/
theorem denotes_write_text_iff {s : String} :
    Denotes (write (.text s)).toList bs ↔ InBasicPlane s ∧ bs = bytes s.toList := by
  rw [InBasicPlane, ← spells_flatMap_stringChar_iff, write, String.toList_ofList, chars, stringText]
  constructor
  · rintro ⟨body, hbody, h⟩
    obtain ⟨-, hbody⟩ := List.cons.inj hbody
    rwa [List.append_cancel_right hbody]
  · exact fun h ↦ ⟨_, rfl, h⟩

end Json

/-! ## Texts as constants -/

namespace TypeExpression

open Declaration Emit

variable {env : Environment} {type : String} {path : Path}

/-- A branch with a text for its value yields a constant, whose value is a literal for bytes exactly
if the text is in the basic plane and they are its own. -/
def SpellsText (env : Environment) (branch : Schema) (yield : Option Constant) : Prop :=
  ∀ node s, env.document.deref branch = .ok node → node.keywords.const = some (.text s) →
    ∃ c, yield = some c ∧
      ∀ bs, Denotes c.value.toList bs ↔ Json.InBasicPlane s ∧ bs = bytes s.toList

theorem spellsText_of_yieldsConstant {branch : Schema} {yield : Option Constant}
    (h : Schema.YieldsConstant env type branch yield) : SpellsText env branch yield := by
  intro node s hnode hvalue
  cases h with
  | nothing hnode' hnone =>
    cases hnode.symm.trans hnode'
    cases hvalue.symm.trans hnone
  | @constant _ _ c hnode' hvalue' hconstant =>
    cases hnode.symm.trans hnode'
    cases hvalue.symm.trans hvalue'
    obtain ⟨label, description, -, -, rfl⟩ := of_constant_eq_ok hconstant
    exact ⟨_, rfl, fun bs ↦ Json.denotes_write_text_iff⟩

/-- **What text constants denote.** The constants of a set come of its branches, in order. Where the
value of a branch is a text, the value of its constant is a literal exactly if the text has only
characters of the basic plane, and then the literal denotes the text. -/
theorem text_constants_iff {index : Nat} {memory : Correlator.Memory} {branches : List Schema}
    {cs : List Constant} (h : (constants env type path index branches memory).result = .ok cs) :
    ∃ yields, cs = yields.reduceOption ∧ List.Forall₂ (SpellsText env) branches yields := by
  have hconstants : Ensures (fun _ ↦ True) (constants env type path index branches) _ :=
    ensures_yields type path index branches
  obtain ⟨-, yields, hyields, hcs, -⟩ := hconstants memory cs trivial h
  exact ⟨yields, hcs, hyields.imp fun _ _ ↦ spellsText_of_yieldsConstant⟩

/-- A branch whose value is a text. -/
def moodBranch (line : Nat) (title text : String) : Schema :=
  .leaf { Schema.Keywords.blank line with title := .text title, const := some (.text text) }

/-- A text in the basic plane and one that is not. -/
def moodBranches : List Schema :=
  [moodBranch 2 "Calm" "\"Gefühl\"\n", moodBranch 3 "Smile" "😀"]

/-- The constants of the two texts. -/
def moodConstants : List Constant :=
  [⟨"MoodCalm", "\"\\\"Gef\\u00fchl\\\"\\n\"", ""⟩,
    ⟨"MoodSmile", "\"\\ud83d\\ude00\"", ""⟩]

theorem deref_moodBranch (line : Nat) (title text : String) :
    (Generation.plainEnvironment ⟨[], []⟩).document.deref (moodBranch line title text) =
      .ok (moodBranch line title text) := by
  rw [Document.deref, Document.follow]
  rfl

theorem constants_moodBranches :
    (constants (Generation.plainEnvironment ⟨[], []⟩) "Mood" (.ofRoot "Mood") 0 moodBranches
      []).result = .ok moodConstants := by
  decide +kernel

/-- The first text comes out as it is, and the other one does not come out. -/
theorem text_constants_iff_mood :
    ∃ calm smile, moodConstants = [calm, smile] ∧
      Denotes calm.value.toList (bytes "\"Gefühl\"\n".toList) ∧
      ∀ bs, ¬ Denotes smile.value.toList bs := by
  obtain ⟨yields, hcs, hyields⟩ := text_constants_iff constants_moodBranches
  rcases hyields with _ | ⟨hcalm, _ | ⟨hsmile, ⟨⟩⟩⟩
  obtain ⟨calm, rfl, hcalm'⟩ := hcalm _ _ (deref_moodBranch _ _ _) rfl
  obtain ⟨smile, rfl, hsmile'⟩ := hsmile _ _ (deref_moodBranch _ _ _) rfl
  exact ⟨calm, smile, hcs, (hcalm' _).mpr ⟨by simp [Json.InBasicPlane], rfl⟩,
    fun bs h ↦ absurd ((hsmile' bs).mp h).1 (by simp [Json.InBasicPlane])⟩

/-- The value of a text constant may be no literal. -/
theorem not_text_constants :
    ¬ ∀ (env : Environment) (type : String) (path : Path) (branches : List Schema)
        (memory : Correlator.Memory) (cs : List Constant),
      (constants env type path 0 branches memory).result = .ok cs →
        (∀ branch ∈ branches, ∃ node s, env.document.deref branch = .ok node ∧
          node.keywords.const = some (.text s)) →
        ∀ c ∈ cs, ∃ bs, Denotes c.value.toList bs := by
  intro h
  have htexts : ∀ branch ∈ moodBranches, ∃ node s,
      (Generation.plainEnvironment ⟨[], []⟩).document.deref branch = .ok node ∧
        node.keywords.const = some (.text s) := by
    simp only [moodBranches, List.forall_mem_cons]
    exact ⟨⟨_, _, deref_moodBranch _ _ _, rfl⟩, ⟨_, _, deref_moodBranch _ _ _, rfl⟩,
      fun _ h ↦ absurd h List.not_mem_nil⟩
  obtain ⟨bs, hsmile⟩ := h _ _ _ _ _ _ constants_moodBranches htexts
    ⟨"MoodSmile", (Json.text "😀").write, ""⟩ (by decide +kernel)
  exact absurd (Json.denotes_write_text_iff.mp hsmile).1 (by simp [Json.InBasicPlane])

end TypeExpression

end SchemaTypes
