import SchemaTypes.Generation
import SchemaTypes.Proofs.Emission.Outputs
import SchemaTypes.Proofs.Identifier.Likeness

/-!
# Fields of an object

An object is written with one field for every property that has an identifier, in the order of the
properties, and the field goes by that identifier (`Schema.WritesObject.exists_fields`). What an
object reports comes of the types of its fields: nothing is reported of the fields themselves. So
fields clash exactly if two properties have one identifier, and nobody is told
(`Schema.nodup_fields_iff`). They never do where properties differ in their letters and digits,
whatever the case of these.
-/

namespace SchemaTypes

open Declaration Identifier TypeExpression

/-- A field of an object. -/
structure Field where
  /-- The lines in front of it. -/
  comment : String
  name : String
  type : String
  /-- What stands in quotes behind the type. -/
  tag : String

/-- The lines of a field. -/
def Field.text (f : Field) : String :=
  f.comment ++ ("\t" ++ f.name ++ " " ++ f.type ++ " `json:\"" ++ f.tag ++ "\"`\n")

namespace Schema

variable {env : Environment} {documents : List (String × FieldInfo) → Prop}
  {part : Schema → Path → Output → Prop} {s : Schema} {path : Path} {o : Output}

/-- The properties that have an identifier, in order. -/
def usableProperties (s : Schema) : List (String × Schema) :=
  s.sortedProperties.filter fun p ↦ !(ofSnakeCase p.1).isEmpty

/-- The names of the fields of an object, in order. -/
def fieldNames (s : Schema) : List String := s.usableProperties.map fun p ↦ ofSnakeCase p.1

/-- The field of a property. -/
structure IsField (part : Schema → Path → Output → Prop) (s : Schema) (path : Path)
    (p : String × Schema) (f : Field) : Prop where
  comment : f.comment = "" ∨ ∃ sentence, f.comment = Comment.partComment sentence
  name : f.name = ofSnakeCase p.1
  type : ∃ inner, part p.2 (path.push p.1) inner ∧
    f.type = if s.requires p.1 then inner.text else optional inner.text
  tag : f.tag = if s.requires p.1 then p.1 else p.1 ++ ",omitempty"

/-- An issue is reported by the type of a property. -/
def ReportsBelow (part : Schema → Path → Output → Prop) (properties : List (String × Schema))
    (path : Path) (issue : Issue) : Prop :=
  ∃ p ∈ properties, ∃ inner, part p.2 (path.push p.1) inner ∧ issue ∈ inner.issues

/-! ## What is written for an object -/

/-- A property with an identifier is written as its field. -/
theorem WritesField.exists_field {documented : List (String × FieldInfo)} {p : String × Schema}
    (h : WritesField env part s documented path p o)
    (husable : (ofSnakeCase p.1).isEmpty = false) :
    ∃ f, IsField part s path p f ∧ o.text = f.text := by
  cases h with
  | unnamed hempty =>
    rw [husable] at hempty
    cases hempty
  | @required name comment t inner _ hrequired hcomment hinner =>
    refine ⟨⟨comment, ofSnakeCase name, inner.text, name⟩, ⟨hcomment.eq_partComment, rfl, ?_, ?_⟩,
      rfl⟩
    · exact ⟨inner, hinner, (if_pos hrequired).symm⟩
    · exact (if_pos hrequired).symm
  | @optional name comment t inner package _ hoptional hcomment hinner _ =>
    have hnot : ¬ s.requires name = true := Bool.eq_false_iff.mp hoptional
    refine ⟨⟨comment, ofSnakeCase name, TypeExpression.optional inner.text, name ++ ",omitempty"⟩,
      ⟨hcomment.eq_partComment, rfl, ?_, ?_⟩, ?_⟩
    · exact ⟨inner, hinner, (if_neg hnot).symm⟩
    · exact (if_neg hnot).symm
    · simp only [Output.text_append, Output.written, Output.mapText, Output.need, Field.text,
        String.append_assoc, String.append_empty]
      rfl

/-- The field of a property without an identifier is left out. -/
theorem WritesField.eq_nothing {documented : List (String × FieldInfo)} {p : String × Schema}
    (h : WritesField env part s documented path p o)
    (hempty : (ofSnakeCase p.1).isEmpty = true) : o = .nothing := by
  cases h with
  | unnamed => rfl
  | required husable => cases hempty.symm.trans husable
  | optional husable => cases hempty.symm.trans husable

theorem exists_fields_of_forall₂ {documented : List (String × FieldInfo)}
    {properties : List (String × Schema)} {outputs : List Output}
    (h : List.Forall₂ (WritesField env part s documented path) properties outputs) :
    ∃ fields, List.Forall₂ (IsField part s path)
        (properties.filter fun p ↦ !(ofSnakeCase p.1).isEmpty) fields ∧
      (Output.join outputs).text = String.join (fields.map Field.text) := by
  induction h with
  | nil => exact ⟨[], .nil, rfl⟩
  | @cons p o ps os hfield _ ih =>
    obtain ⟨fields, hfields, htext⟩ := ih
    rcases hempty : (ofSnakeCase p.1).isEmpty with _ | _
    · obtain ⟨f, hf, hftext⟩ := hfield.exists_field hempty
      refine ⟨f :: fields, ?_, ?_⟩
      · rw [List.filter_cons_of_pos (by simp [hempty])]
        exact .cons hf hfields
      · rw [Output.join, Output.text_append, htext, hftext, List.map_cons, String.join_cons]
    · rw [List.filter_cons_of_neg (by simp [hempty]), hfield.eq_nothing hempty, Output.join,
        Output.nothing_append]
      exact ⟨fields, hfields, htext⟩

/-- What is reported comes of the type of a property. -/
theorem reportsBelow_of_forall₂ {documented : List (String × FieldInfo)}
    {properties : List (String × Schema)} {outputs : List Output}
    (h : List.Forall₂ (WritesField env part s documented path) properties outputs) :
    ∀ issue ∈ (Output.join outputs).issues, ReportsBelow part properties path issue := by
  have hbelow : ∀ o ∈ outputs, ∀ issue ∈ o.issues, ReportsBelow part properties path issue := by
    refine forall_mem_of_forall₂ h fun p hp o hfield issue hissue ↦ ?_
    cases hfield with
    | unnamed => cases hissue
    | required _ _ _ hinner => exact ⟨_, hp, _, hinner, hissue⟩
    | optional _ _ _ hinner _ =>
      refine ⟨_, hp, _, hinner, ?_⟩
      simpa [Output.written, Output.mapText, Output.need] using hissue
  intro issue hissue
  rw [Output.issues_join] at hissue
  obtain ⟨o, ho, hissue⟩ := List.mem_flatMap.mp hissue
  exact hbelow o ho issue hissue

/-- **An object is written by its fields**, and reports no more than their types. -/
theorem WritesObject.exists_fields (h : WritesObject env documents part s path o) :
    ∃ fields, List.Forall₂ (IsField part s path) s.usableProperties fields ∧
      o.text = "struct \x7b\n" ++ String.join (fields.map Field.text) ++ "\x7d" ∧
      ∀ issue ∈ o.issues, ReportsBelow part s.properties path issue := by
  obtain ⟨documented, outputs, -, houtputs, rfl⟩ := h
  obtain ⟨fields, hfields, htext⟩ := exists_fields_of_forall₂ houtputs
  refine ⟨fields, hfields, ?_, fun issue hissue ↦ ?_⟩
  · rw [Output.text_append, Output.text_append, htext, String.append_assoc]
    rfl
  · have hjoin : issue ∈ (Output.join outputs).issues := by
      simpa [Output.written] using hissue
    obtain ⟨p, hp, hbelow⟩ := reportsBelow_of_forall₂ houtputs issue hjoin
    exact ⟨p, (sortedProperties_perm s).mem_iff.mp hp, hbelow⟩

/-! ## Names of fields -/

theorem map_name_eq {properties : List (String × Schema)} {fields : List Field}
    (h : List.Forall₂ (IsField part s path) properties fields) :
    fields.map Field.name = properties.map fun p ↦ ofSnakeCase p.1 := by
  induction h with
  | nil => rfl
  | cons hfield _ ih => rw [List.map_cons, List.map_cons, hfield.name, ih]

/-- Fields go by different names exactly if no two properties have one identifier. -/
theorem nodup_fieldNames_iff (s : Schema) :
    s.fieldNames.Nodup ↔ s.properties.Pairwise fun p q ↦
      ofSnakeCase p.1 = ofSnakeCase q.1 → ofSnakeCase p.1 = "" := by
  have hsymm : ∀ {p q : String × Schema},
      (ofSnakeCase p.1 = ofSnakeCase q.1 → ofSnakeCase p.1 = "") →
        ofSnakeCase q.1 = ofSnakeCase p.1 → ofSnakeCase q.1 = "" :=
    fun h heq ↦ heq.trans (h heq.symm)
  rw [fieldNames, usableProperties, List.Nodup, List.pairwise_map, List.pairwise_filter,
    ← (sortedProperties_perm s).pairwise_iff hsymm]
  refine List.Pairwise.iff fun p q ↦ ?_
  rw [Bool.not_eq_true', Bool.not_eq_true', String.isEmpty_eq_false_iff,
    String.isEmpty_eq_false_iff]
  constructor
  · intro h heq
    by_contra hne
    exact h hne (heq ▸ hne) heq
  · intro h hne _ heq
    exact hne (h heq)

/-- Properties that differ in their letters have fields that differ in name. -/
theorem nodup_fieldNames_of_skeleton (h : s.properties.Pairwise fun p q ↦
    skeleton p.1 = skeleton q.1 → skeleton p.1 = []) : s.fieldNames.Nodup := by
  refine (nodup_fieldNames_iff s).mpr (h.imp fun {p q} hpq heq ↦ ?_)
  have hsame : skeleton p.1 = skeleton q.1 := by
    rw [← skeleton_ofSnakeCase p.1, heq, skeleton_ofSnakeCase]
  exact ofSnakeCase_eq_empty_iff.mpr (hpq hsame)

/-- **When fields clash.** An object is written by its fields, which go by the identifiers of its
properties. It reports no more than the types of its properties do, whatever the names of its fields
are, and these differ exactly if no two properties have one identifier: which they do not if they
differ in their letters. -/
theorem nodup_fields_iff {memory : Correlator.Memory}
    (h : (objectType env s (s.parts env) path memory).result = .ok ()) :
    ∃ fields,
      (objectType env s (s.parts env) path memory).text =
        "struct \x7b\n" ++ String.join (fields.map Field.text) ++ "\x7d" ∧
      List.Forall₂ (IsField (Leaves env) s path) s.usableProperties fields ∧
      fields.map Field.name = s.fieldNames ∧
      (∀ issue ∈ Event.reports (objectType env s (s.parts env) path memory).events,
        ReportsBelow (Leaves env) s.properties path issue) ∧
      ((fields.map Field.name).Nodup ↔ s.properties.Pairwise fun p q ↦
        ofSnakeCase p.1 = ofSnakeCase q.1 → ofSnakeCase p.1 = "") ∧
      ((s.properties.Pairwise fun p q ↦ skeleton p.1 = skeleton q.1 → skeleton p.1 = []) →
        (fields.map Field.name).Nodup) := by
  have hwrites : WritesObject env (fun _ ↦ True) (Leaves env) s path
      (objectType env s (s.parts env) path memory).output :=
    (ensures_objectType (ensuresChildren_leaves env s) env.documents_true memory () trivial h).2
  obtain ⟨fields, hfields, htext, hissues⟩ := hwrites.exists_fields
  have hnames : fields.map Field.name = s.fieldNames := map_name_eq hfields
  refine ⟨fields, htext, hfields, hnames, hissues, ?_, fun hskeleton ↦ ?_⟩
  · rw [hnames]
    exact nodup_fieldNames_iff s
  · rw [hnames]
    exact nodup_fieldNames_of_skeleton hskeleton

/-- A user with two properties whose names differ in how words are told apart. -/
def userNode : Schema :=
  .node { Keywords.blank 1 with
    types := ["object"], required := [.text "user_id", .text "userId"] }
    [("user_id", .leaf { Keywords.blank 2 with types := ["string"] }),
      ("userId", .leaf { Keywords.blank 3 with types := ["string"] })] none [] [] [] none

/-- The environment of the user. -/
def userEnvironment : Environment := Generation.plainEnvironment ⟨[("User", userNode)], []⟩

theorem ended_userNode : (objectType userEnvironment userNode (userNode.parts userEnvironment)
    (.ofRoot "User") []).result = .ok () := by
  decide +kernel

/-- The two fields of the user go by one name. -/
theorem nodup_fields_iff_user :
    ∃ fields,
      (objectType userEnvironment userNode (userNode.parts userEnvironment)
        (.ofRoot "User") []).text =
          "struct \x7b\n" ++ String.join (fields.map Field.text) ++ "\x7d" ∧
      List.Forall₂ (IsField (Leaves userEnvironment) userNode (.ofRoot "User"))
        userNode.usableProperties fields ∧
      fields.map Field.name = ["UserID", "UserID"] ∧
      ¬ userNode.properties.Pairwise fun p q ↦
        ofSnakeCase p.1 = ofSnakeCase q.1 → ofSnakeCase p.1 = "" := by
  obtain ⟨fields, htext, hfields, hnames, -, hnodup, -⟩ := nodup_fields_iff ended_userNode
  have hsame : userNode.fieldNames = ["UserID", "UserID"] := by decide +kernel
  rw [hnames, hsame] at hnodup
  exact ⟨fields, htext, hfields, hnames.trans hsame, fun h ↦ absurd (hnodup.mpr h) (by decide)⟩

/-- Fields of an object may go by one name without an issue. -/
theorem not_nodup_fields :
    ¬ ∀ (env : Environment) (s : Schema) (path : Path) (memory : Correlator.Memory),
      (objectType env s (s.parts env) path memory).result = .ok () →
        s.fieldNames.Nodup ∨
          Event.reports (objectType env s (s.parts env) path memory).events ≠ [] := by
  intro h
  have hsame : userNode.fieldNames = ["UserID", "UserID"] := by decide +kernel
  have hnone : (Event.reports (objectType userEnvironment userNode
      (userNode.parts userEnvironment) (.ofRoot "User") []).events).length = 0 := by
    decide +kernel
  rcases h userEnvironment userNode (.ofRoot "User") [] ended_userNode with hnodup | hissue
  · rw [hsame] at hnodup
    revert hnodup
    decide
  · exact hissue (List.eq_nil_of_length_eq_zero hnone)

end Schema

end SchemaTypes
