import SchemaTypes.Proofs.Emission.Fields
import SchemaTypes.Proofs.Text.Literals

/-!
# Tags of fields

Behind the type of a field stands a tag: a literal in back quotes that has another one in quotes in
it, which begins with the name of the property and ends at a comma if there are options
(`Literal.NamesKey`). The name is put there as it is. So the tag names the property exactly if the
name has none of the characters that mean something in one of these literals or end the name
(`Schema.tags_name_iff`).
-/

namespace SchemaTypes

namespace Literal

/-! ## Keys of tags -/

/-- A tag is a literal that names a key: its value has a literal in quotes behind the word for it,
and up to the first comma that is the key. -/
def NamesKey (tag key : String) : Prop :=
  ∃ value literal bs, DenotesRaw tag.toList value ∧ value = "json:".toList ++ literal ∧
    Denotes literal bs ∧ bs.takeWhile (· != 0x2C) = bytes key.toList

/-- The characters that a name in a tag cannot have. -/
def unfit : List Char := ['\x60', '"', '\\', ',', '\r', '\n']

/-- A tag with a name in it, and options behind that. -/
def tagged (name options : String) : String := "\x60json:\"" ++ name ++ options ++ "\"\x60"

section

variable {cs options : List Char} {bs : List UInt8}

theorem length_takeWhile_comma_le (before behind : List UInt8) :
    ((before ++ 0x2C :: behind).takeWhile (· != 0x2C)).length ≤ before.length := by
  induction before with
  | nil => simp
  | cons b before ih =>
    rw [List.cons_append, List.takeWhile_cons]
    split
    · exact Nat.succ_le_succ ih
    · exact Nat.zero_le _

/-- What is in front of a comma are no more bytes than the characters have, and as many only if they
have neither a comma nor anything special. -/
theorem Spells.takeWhile_le (h : Spells (cs ++ options) bs)
    (hoptions : options = [] ∨ ∃ rest, options = ',' :: rest) :
    (bs.takeWhile (· != 0x2C)).length ≤ (bytes cs).length ∧
      ((bytes cs).length ≤ (bs.takeWhile (· != 0x2C)).length →
        ∀ c ∈ cs, c ∉ special ∧ c ≠ ',') := by
  by_cases hcomma : ',' ∈ cs
  · obtain ⟨front, behind, rfl⟩ := List.append_of_mem hcomma
    rw [List.append_assoc, List.cons_append] at h
    obtain ⟨before, rest, rfl, hfront, -⟩ := h.exists_of_append_comma
    have hshort := length_takeWhile_comma_le before rest
    have hfewer := hfront.plain_of_length_le.1
    have hbyte : (String.utf8EncodeChar ',').length = 1 := by decide
    rw [bytes_append, bytes_cons, List.length_append, List.length_append, hbyte]
    exact ⟨by omega, fun hlength ↦ by omega⟩
  · obtain ⟨before, hbefore, hshort⟩ :
        ∃ before, Spells cs before ∧ (bs.takeWhile (· != 0x2C)).length ≤ before.length := by
      rcases hoptions with rfl | ⟨rest, rfl⟩
      · rw [List.append_nil] at h
        exact ⟨bs, h, (List.takeWhile_prefix _).length_le⟩
      · obtain ⟨before, behind, rfl, hbefore, -⟩ := h.exists_of_append_comma
        exact ⟨before, hbefore, length_takeWhile_comma_le before behind⟩
    obtain ⟨hle, hplain⟩ := hbefore.plain_of_length_le
    refine ⟨hshort.trans hle, fun hlength c hc ↦ ⟨hplain (hlength.trans hshort) c hc, ?_⟩⟩
    rintro rfl
    exact hcomma hc

end

theorem toList_tagged (name options : String) : (tagged name options).toList =
    '\x60' :: ("json:".toList ++ '"' :: (name.toList ++ options.toList ++ ['"']) ++ ['\x60']) := by
  simp [tagged]

/-- What is in quotes in the value of a tag. -/
theorem eq_of_denotesRaw_tagged {name options : String} {value inner : List Char}
    (h : DenotesRaw (tagged name options).toList value)
    (hvalue : value = "json:".toList ++ '"' :: (inner ++ ['"'])) :
    '\x60' ∉ name.toList ∧ inner = (name.toList ++ options.toList).filter (· != '\r') := by
  obtain ⟨body, hbody, hquote, rfl⟩ := h
  obtain ⟨-, hbody⟩ := List.cons.inj ((toList_tagged name options).symm.trans hbody)
  obtain rfl := List.append_cancel_right hbody
  have hvalue' : ("json:".toList ++ '"' :: (name.toList ++ options.toList ++ ['"'])).filter
      (· != '\r') =
        "json:".toList ++ '"' :: ((name.toList ++ options.toList).filter (· != '\r') ++ ['"']) := by
    simp [List.filter_append]
  obtain ⟨-, hinner⟩ := List.cons.inj (List.append_cancel_left (hvalue'.symm.trans hvalue))
  exact ⟨fun hmem ↦ hquote (by simp [hmem]), (List.append_cancel_right hinner).symm⟩

section Naming

variable {name options : String}

/-- A key that is named by the tag it is put into has no character that means something there. -/
theorem NamesKey.forall_not_mem_unfit (h : NamesKey (tagged name options) name)
    (hoptions : options.toList = [] ∨ ∃ rest, options.toList = ',' :: rest) :
    ∀ c ∈ name.toList, c ∉ unfit := by
  obtain ⟨value, literal, bs, hraw, hvalue, ⟨inner, rfl, hspells⟩, hkey⟩ := h
  obtain ⟨hquote, rfl⟩ := eq_of_denotesRaw_tagged hraw hvalue
  rw [List.filter_append] at hspells
  have hkept : options.toList.filter (· != '\r') = [] ∨
      ∃ rest, options.toList.filter (· != '\r') = ',' :: rest := by
    rcases hoptions with hnil | ⟨rest, hrest⟩
    · exact .inl (by rw [hnil, List.filter_nil])
    · exact .inr ⟨_, by rw [hrest, List.filter_cons_of_pos (by decide)]⟩
  -- The key has as many bytes as the name, so that none may have been lost on the way.
  obtain ⟨hle, hplain⟩ := hspells.takeWhile_le hkept
  rw [hkey] at hle hplain
  obtain ⟨hfewer, hall⟩ := length_bytes_filter_le (· != '\r') name.toList
  intro c hc hunfit
  have hreturn : c ≠ '\r' := by simpa using hall hle c hc
  obtain ⟨hspecial, hcomma⟩ := hplain hfewer c (List.mem_filter.mpr ⟨hc, by simpa using hreturn⟩)
  simp only [special, List.mem_cons, List.not_mem_nil, or_false, not_or] at hspecial
  obtain ⟨hdouble, hslash, hfeed⟩ := hspecial
  simp only [unfit, List.mem_cons, List.not_mem_nil, or_false] at hunfit
  rcases hunfit with rfl | h | h | h | h | h
  · exact hquote hc
  · exact hdouble h
  · exact hslash h
  · exact hcomma h
  · exact hreturn h
  · exact hfeed h

/-- What is in a tag is taken as it is if nothing in it means something but commas. -/
theorem denotesRaw_tagged (h : ∀ c ∈ name.toList ++ options.toList, c ∈ unfit → c = ',') :
    DenotesRaw (tagged name options).toList
      ("json:".toList ++ '"' :: (name.toList ++ options.toList ++ ['"'])) := by
  have hframe : ∀ c ∈ "json:".toList, c ≠ '\x60' ∧ c ≠ '\r' := by simp
  have hclean : ∀ c ∈ "json:".toList ++ '"' :: (name.toList ++ options.toList ++ ['"']),
      c ≠ '\x60' ∧ c ≠ '\r' := by
    intro c hc
    rw [List.mem_append, List.mem_cons, List.mem_append, List.mem_singleton] at hc
    rcases hc with hc | rfl | hc | rfl
    · exact hframe c hc
    · decide
    · refine ⟨?_, ?_⟩ <;> rintro rfl
      · exact absurd (h _ hc (by simp [unfit])) (by decide)
      · exact absurd (h _ hc (by simp [unfit])) (by decide)
    · decide
  exact ⟨_, toList_tagged name options, fun hmem ↦ (hclean _ hmem).1 rfl,
    (List.filter_eq_self.mpr fun c hc ↦ bne_iff_ne.mpr (hclean c hc).2).symm⟩

/-- Up to the first comma there is the name and none of the options. -/
theorem takeWhile_bytes_append (hname : ',' ∉ name.toList)
    (hoptions : options.toList = [] ∨ ∃ rest, options.toList = ',' :: rest) :
    (bytes (name.toList ++ options.toList)).takeWhile (· != 0x2C) = bytes name.toList := by
  have hall : ∀ b ∈ bytes name.toList, b != 0x2C := fun b hb ↦
    bne_iff_ne.mpr fun h ↦ comma_not_mem_bytes hname (h ▸ hb)
  have hbehind : (bytes options.toList).takeWhile (· != 0x2C) = [] := by
    rcases hoptions with hnil | ⟨rest, hrest⟩
    · rw [hnil]
      rfl
    · rw [hrest]
      rfl
  rw [bytes_append, List.takeWhile_append_of_pos hall, hbehind, List.append_nil]

/-- **A tag names the key that is put into it** exactly if that has no character that means
something there. -/
theorem namesKey_tagged_iff
    (hoptions : options.toList = [] ∨ ∃ rest, options.toList = ',' :: rest)
    (hfit : ∀ c ∈ options.toList, c ∈ unfit → c = ',') :
    NamesKey (tagged name options) name ↔ ∀ c ∈ name.toList, c ∉ unfit := by
  refine ⟨fun h ↦ h.forall_not_mem_unfit hoptions, fun hname ↦ ?_⟩
  have hchars : ∀ c ∈ name.toList ++ options.toList, c ∈ unfit → c = ',' := by
    intro c hc hunfit
    rcases List.mem_append.mp hc with hc | hc
    · exact absurd hunfit (hname c hc)
    · exact hfit c hc hunfit
  have hspecial : ∀ c ∈ special, c ∈ unfit ∧ c ≠ ',' := by simp [special, unfit]
  have hspells :
      Spells (name.toList ++ options.toList) (bytes (name.toList ++ options.toList)) := by
    refine .of_forall_not_mem fun c hc hmem ↦ ?_
    obtain ⟨hunfit, hne⟩ := hspecial c hmem
    exact hne (hchars c hc hunfit)
  have hcomma : ',' ∉ name.toList := fun hmem ↦ hname ',' hmem (by simp [unfit])
  exact ⟨_, _, _, denotesRaw_tagged hchars, rfl, ⟨_, rfl, hspells⟩,
    takeWhile_bytes_append hcomma hoptions⟩

end Naming

end Literal

open Literal TypeExpression

/-! ## Tags of fields -/

/-- The tag at the end of the line of a field. -/
def Field.tagLiteral (f : Field) : String := "\x60json:\"" ++ f.tag ++ "\"\x60"

theorem Field.text_eq (f : Field) :
    f.text = f.comment ++ "\t" ++ f.name ++ " " ++ f.type ++ " " ++ f.tagLiteral ++ "\n" := by
  rw [← String.toList_inj]
  simp [Field.text, Field.tagLiteral]

namespace Schema

variable {env : Environment} {part : Schema → Path → Output → Prop} {s : Schema} {path : Path}
  {p : String × Schema} {f : Field}

/-- A tag has the name of the property in it, and says if the property may be left out. -/
theorem IsField.tagLiteral_eq (h : IsField part s path p f) :
    f.tagLiteral = tagged p.1 (if s.requires p.1 then "" else ",omitempty") := by
  rw [Field.tagLiteral, h.tag, tagged]
  split
  · rw [String.append_empty]
  · simp only [String.append_assoc]

theorem IsField.namesKey_iff (h : IsField part s path p f) :
    NamesKey f.tagLiteral p.1 ↔ ∀ c ∈ p.1.toList, c ∉ unfit := by
  rw [h.tagLiteral_eq]
  split
  · exact namesKey_tagged_iff (.inl rfl) fun c hc ↦ absurd hc List.not_mem_nil
  · refine namesKey_tagged_iff (.inr ⟨"omitempty".toList, by simp⟩) ?_
    simp [unfit]

/-- **Which properties their tags name.** An object is written by one field for every property that
has an identifier, each with a tag at the end of its line. A tag names the property exactly if the
name of the property has no quote, back quote, backslash, comma, carriage return or line feed. -/
theorem tags_name_iff {memory : Correlator.Memory}
    (h : (objectType env s (s.parts env) path memory).result = .ok ()) :
    ∃ fields,
      (objectType env s (s.parts env) path memory).text =
        "struct \x7b\n" ++ String.join (fields.map Field.text) ++ "\x7d" ∧
      List.Forall₂ (fun p f ↦ IsField (Leaves env) s path p f ∧
        (∃ front, f.text = front ++ f.tagLiteral ++ "\n") ∧
        (NamesKey f.tagLiteral p.1 ↔ ∀ c ∈ p.1.toList, c ∉ unfit)) s.usableProperties fields := by
  have hwrites : WritesObject env (fun _ ↦ True) (Leaves env) s path
      (objectType env s (s.parts env) path memory).output :=
    (ensures_objectType (ensuresChildren_leaves env s) env.documents_true memory () trivial h).2
  obtain ⟨fields, hfields, htext, -⟩ := hwrites.exists_fields
  exact ⟨fields, htext, hfields.imp fun p f hf ↦ ⟨hf, ⟨_, f.text_eq⟩, hf.namesKey_iff⟩⟩

/-- A guild with a quote in the name of a property. -/
def quotedNode : Schema :=
  .node { Keywords.blank 1 with types := ["object"], required := [.text "a\"b"] }
    [("a\"b", .leaf { Keywords.blank 2 with types := ["string"] }),
      ("name", .leaf { Keywords.blank 3 with types := ["string"] })] none [] [] [] none

/-- The environment of the guild. -/
def quotedEnvironment : Environment := Generation.plainEnvironment ⟨[("Guild", quotedNode)], []⟩

theorem ended_quotedNode : (objectType quotedEnvironment quotedNode
    (quotedNode.parts quotedEnvironment) (.ofRoot "Guild") []).result = .ok () := by
  decide +kernel

theorem usableProperties_quotedNode : quotedNode.usableProperties = quotedNode.properties := by
  rfl

/-- The tag of the first property does not name it, and that of the other one does. -/
theorem tags_name_iff_quoted :
    ∃ broken sound,
      (objectType quotedEnvironment quotedNode (quotedNode.parts quotedEnvironment)
        (.ofRoot "Guild") []).text =
          "struct \x7b\n" ++ String.join [Field.text broken, Field.text sound] ++ "\x7d" ∧
      ¬ NamesKey broken.tagLiteral "a\"b" ∧ NamesKey sound.tagLiteral "name" := by
  obtain ⟨fields, htext, hfields⟩ := tags_name_iff ended_quotedNode
  rw [usableProperties_quotedNode] at hfields
  rcases hfields with _ | ⟨⟨-, -, hbroken⟩, _ | ⟨⟨-, -, hsound⟩, ⟨⟩⟩⟩
  refine ⟨_, _, htext, fun h ↦ ?_, hsound.mpr (by simp [unfit])⟩
  exact hbroken.mp h '"' (by simp) (by simp [unfit])

/-- A tag may not name the property of its field. -/
theorem not_tags_name :
    ¬ ∀ (env : Environment) (s : Schema) (path : Path) (memory : Correlator.Memory),
      (objectType env s (s.parts env) path memory).result = .ok () →
        ∃ fields,
          (objectType env s (s.parts env) path memory).text =
            "struct \x7b\n" ++ String.join (fields.map Field.text) ++ "\x7d" ∧
          List.Forall₂ (fun p f ↦ IsField (Leaves env) s path p f ∧ NamesKey f.tagLiteral p.1)
            s.usableProperties fields := by
  intro h
  obtain ⟨fields, -, hfields⟩ := h quotedEnvironment quotedNode (.ofRoot "Guild") []
    ended_quotedNode
  rw [usableProperties_quotedNode] at hfields
  rcases hfields with _ | ⟨⟨hfield, hnames⟩, -⟩
  exact hfield.namesKey_iff.mp hnames '"' (by simp) (by simp [unfit])

end Schema

end SchemaTypes
