import SchemaTypes.Proofs.Json.Canonical
import SchemaTypes.Proofs.Schema.Keeping

/-!
# What the canonical text of a schema tells

The canonical text of a schema leaves out positions, the order of properties and the order of the
members of objects that it keeps, and nothing else (`Schema.canonicalText_eq_iff_sameShape`).

The text of the value that a schema is written as tells that value up to the order of members. It
is left to see that the value tells the schema. A node says something or nothing under each keyword,
and two nodes are written alike if they say alike things (`Schema.rearranged_toJson_iff_sayings`);
in normal form they say alike things if their keywords are alike and the schemas below them are
written alike (`Schema.rearranged_toJson_iff`).
-/

namespace SchemaTypes

namespace Json

/-- Objects are alike if alike values are found under each key. -/
theorem Rearranged.object_iff_lookup {members others : List (String × Json)}
    (hmembers : (Entries.names members).Nodup) (hothers : (Entries.names others).Nodup) :
    Rearranged (.object members) (.object others) ↔
      ∀ key, Option.Rel Rearranged (members.lookup key) (others.lookup key) := by
  rw [object_iff]
  constructor
  · rintro ⟨hnames, h⟩ key
    have hsome : (members.lookup key).isSome ↔ (others.lookup key).isSome := by
      rw [Entries.isSome_lookup_iff, Entries.isSome_lookup_iff, hnames.mem_iff]
    cases hm : members.lookup key <;> cases hw : others.lookup key <;> rw [hm, hw] at hsome
    · exact .none
    · simp at hsome
    · simp at hsome
    · exact .some (h key _ _ (Entries.mem_of_lookup hm) (Entries.mem_of_lookup hw))
  · intro h
    refine ⟨(List.perm_ext_iff_of_nodup hmembers hothers).mpr fun key ↦ ?_, ?_⟩
    · rw [← Entries.isSome_lookup_iff, ← Entries.isSome_lookup_iff]
      have hkey := h key
      generalize members.lookup key = found at hkey
      generalize others.lookup key = found' at hkey
      cases hkey <;> simp
    · intro key value other hvalue hother
      have hkey := h key
      rw [(Entries.lookup_eq_some_iff_mem hmembers).mpr hvalue,
        (Entries.lookup_eq_some_iff_mem hothers).mpr hother] at hkey
      exact Option.rel_some_some.mp hkey

end Json

/-- Lists of entries with the same names have alike entries under each name if they have them one
by one. -/
theorem Entries.forall_rel_lookup_present_iff {α : Type} {R : α → α → Prop}
    {xs ys : List (String × Option α)} (hnames : names xs = names ys) (hnodup : (names xs).Nodup) :
    (∀ key, Option.Rel R ((present xs).lookup key) ((present ys).lookup key)) ↔
      List.Forall₂ (fun a b ↦ Option.Rel R a.2 b.2) xs ys := by
  induction xs generalizing ys with
  | nil =>
    obtain rfl : ys = [] := List.map_eq_nil_iff.mp hnames.symm
    exact ⟨fun _ ↦ .nil, fun _ _ ↦ .none⟩
  | cons x xs ih =>
    obtain ⟨name, value⟩ := x
    obtain _ | ⟨⟨name', other⟩, ys⟩ := ys
    · cases hnames
    obtain ⟨rfl, hrest⟩ := List.cons.inj hnames
    obtain ⟨hname, hnodup⟩ := List.nodup_cons.mp hnodup
    have hname' : name ∉ names ys := by
      rw [← show names xs = names ys from hrest]
      exact hname
    rw [List.forall₂_cons, ← ih hrest hnodup]
    simp only [lookup_present_cons hname, lookup_present_cons hname']
    constructor
    · refine fun h ↦ ⟨by simpa using h name, fun key ↦ ?_⟩
      by_cases hkey : key = name
      · rw [hkey, lookup_present_eq_none hname, lookup_present_eq_none hname']
        exact .none
      · simpa [hkey] using h key
    · rintro ⟨hfirst, hmore⟩ key
      split
      · exact hfirst
      · exact hmore key

namespace Schema

open Json

/-- Keywords that differ at most in positions and in the order of object members. -/
structure Keywords.Alike (k l : Keywords) : Prop where
  ref : Option.Rel Rearranged k.ref l.ref
  types : k.types = l.types
  nullable : k.nullable = l.nullable
  required : List.Forall₂ Rearranged k.required l.required
  format : Rearranged k.format l.format
  title : Rearranged k.title l.title
  description : Rearranged k.description l.description
  const : Option.Rel Rearranged k.const l.const

/-- The schemas below a node that are no properties, keyword by keyword. -/
def partLists (s : Schema) : List (List Schema) :=
  [s.items.toList, s.allOf, s.oneOf, s.anyOf, s.negated.toList]

/-- Two trees differ at most in positions, in the order of properties and in the order of the
members of objects that they keep. -/
inductive SameShape : Schema → Schema → Prop
  | intro {s t : Schema} :
      s.keywords.Alike t.keywords →
      (Entries.names s.properties).Perm (Entries.names t.properties) →
      (∀ name a b, (name, a) ∈ s.properties → (name, b) ∈ t.properties → SameShape a b) →
      (∀ p ∈ s.partLists.zip t.partLists, p.1.length = p.2.length) →
      (∀ p ∈ s.partLists.zip t.partLists, ∀ q ∈ p.1.zip p.2, SameShape q.1 q.2) →
      SameShape s t

/-! ## What is read of decoded values -/

/-- A node keeps decoded values only, and no two properties of one name. -/
structure DecodedNode (s : Schema) : Prop where
  properties : (Entries.names s.properties).Nodup
  ref : ∀ value ∈ s.ref, value.Decoded
  required : ∀ value ∈ s.keywords.required, value.Decoded
  format : s.keywords.format.Decoded
  title : s.keywords.title.Decoded
  description : s.keywords.description.Decoded
  const : ∀ value ∈ s.keywords.const, value.Decoded

theorem hereditary_decoded : Json.Hereditary Json.Decoded where
  blank := .text ""
  nothing := .object .nil (by simp)
  member h := (decoded_object_iff.mp h).2
  item h := decoded_list_iff.mp h

/-- What is read of a decoded value keeps decoded values only. -/
theorem decodedNode_of_read {value : Json} (hdecoded : value.Decoded) {location : String}
    {n next : Nat} {s : Schema} (hread : read value location n = .ok (s, next)) :
    ∀ t, Within t s → t.DecodedNode := by
  intro t ht
  have hkeeps := keeps_of_read hereditary_decoded hdecoded hread t ht
  refine ⟨?_, hkeeps.ref, fun value hvalue ↦ ?_, hkeeps.format, hkeeps.title, hkeeps.description,
    hkeeps.const⟩
  · obtain hnil | ⟨named, hnamed, hnames⟩ := hkeeps.properties
    · rw [hnil]
      exact .nil
    · rw [hnames]
      exact (decoded_object_iff.mp hnamed).1
  · obtain hdecoded | ⟨text, rfl⟩ := hkeeps.required value hvalue
    · exact hdecoded
    · exact .text text

theorem decoded_writtenMembers {s : Schema} (hs : s.DecodedNode)
    (hchildren : ∀ child ∈ s.children, child.toJson.Decoded) :
    ∀ m ∈ s.writtenMembers, m.2.Decoded := by
  have hsaid : ∀ (v : Json), v.Decoded → ∀ w ∈ said v, w.Decoded := by
    intro v hv w hw
    unfold said at hw
    split at hw
    · cases hw
    · cases hw
      exact hv
  have hbranches : ∀ branches : List Schema, (∀ t ∈ branches, t ∈ s.children) →
      (Json.list (branches.map toJson)).Decoded := by
    intro branches hmem
    refine .list fun item hitem ↦ ?_
    obtain ⟨t, ht, rfl⟩ := List.mem_map.mp hitem
    exact hchildren t (hmem t ht)
  have hpart : ∀ part : Option Schema, (∀ t, part = some t → t ∈ s.children) →
      ∀ w ∈ part.map toJson, w.Decoded := by
    intro part hmem w hw
    obtain ⟨t, ht, rfl⟩ := Option.map_eq_some_iff.mp hw
    exact hchildren t (hmem t ht)
  have htypes : (textList s.types).Decoded := by
    refine .list fun item hitem ↦ ?_
    obtain ⟨type, -, rfl⟩ := List.mem_map.mp hitem
    exact .text type
  have hproperties : (Json.object (s.properties.map fun p ↦ (p.1, p.2.toJson))).Decoded := by
    refine .object ?_ fun m hm ↦ ?_
    · exact (Entries.names_map_snd toJson s.properties).symm ▸ hs.properties
    · obtain ⟨p, hp, rfl⟩ := List.mem_map.mp hm
      exact hchildren _ (mem_children_of_mem_properties hp)
  have hsayings : ∀ e ∈ s.sayings, ∀ w ∈ e.2, w.Decoded := by
    rw [sayings]
    simp only [List.forall_mem_cons]
    exact ⟨hs.ref, hsaid _ htypes, hsaid _ (.bool _), hsaid _ hproperties,
      hsaid _ (.list hs.required),
      hpart s.items fun _ ↦ mem_children_of_items_eq_some,
      hsaid _ (hbranches s.allOf fun _ ↦ mem_children_of_mem_allOf),
      hsaid _ (hbranches s.oneOf fun _ ↦ mem_children_of_mem_oneOf),
      hsaid _ (hbranches s.anyOf fun _ ↦ mem_children_of_mem_anyOf),
      hpart s.negated fun t ht ↦ mem_children_iff.mpr (by simp [ht]),
      hsaid _ hs.format, hsaid _ hs.title, hsaid _ hs.description, hs.const, by simp⟩
  intro m hm
  obtain ⟨⟨key, value⟩, he, hm⟩ := List.mem_flatMap.mp hm
  obtain ⟨w, hw, rfl⟩ := Option.map_eq_some_iff.mp (Option.mem_toList.mp hm)
  exact hsayings _ he w hw

/-- A keyword is written once. -/
theorem nodup_writtenMembers (s : Schema) : (Entries.names s.writtenMembers).Nodup :=
  s.nodup_sayings.sublist (Entries.names_present_sublist s.sayings)

/-- A schema is written as a decoded value. -/
theorem decoded_toJson {s : Schema} (h : ∀ t, Within t s → t.DecodedNode) : s.toJson.Decoded := by
  induction s using children_induction with
  | step s ih =>
    rw [toJson_eq_writtenMembers]
    refine .object s.nodup_writtenMembers (decoded_writtenMembers (h s .self) fun child hchild ↦ ?_)
    exact ih child hchild fun t ht ↦ h t (.step hchild ht)

/-! ## Shapes and what is written -/

/-- Values that are only written when they say something are written alike if they are alike. -/
theorem rel_said_iff {value other : Json}
    (hvoid : value.isVoid = true → other.isVoid = true → Rearranged value other) :
    Option.Rel Rearranged (said value) (said other) ↔ Rearranged value other := by
  unfold said
  by_cases hv : value.isVoid = true <;> by_cases hw : other.isVoid = true
  · rw [if_pos hv, if_pos hw]
    exact ⟨fun _ ↦ hvoid hv hw, fun _ ↦ .none⟩
  · rw [if_pos hv, if_neg hw]
    exact ⟨fun h ↦ (by cases h), fun h ↦ absurd (h.isVoid_eq ▸ hv) hw⟩
  · rw [if_neg hv, if_pos hw]
    exact ⟨fun h ↦ (by cases h), fun h ↦ absurd (h.isVoid_eq ▸ hw) hv⟩
  · rw [if_neg hv, if_neg hw]
    exact Option.rel_some_some

/-- Two nodes are written alike if they say alike things under each keyword. -/
theorem rearranged_toJson_iff_sayings {s t : Schema} :
    Rearranged s.toJson t.toJson ↔
      List.Forall₂ (fun a b ↦ Option.Rel Rearranged a.2 b.2) s.sayings t.sayings := by
  rw [toJson_eq_writtenMembers, toJson_eq_writtenMembers,
    Rearranged.object_iff_lookup s.nodup_writtenMembers t.nodup_writtenMembers]
  exact Entries.forall_rel_lookup_present_iff rfl s.nodup_sayings

section Members

variable {s t : Schema}

theorem rel_types_iff {types others : List String} :
    Option.Rel Rearranged (said (textList types)) (said (textList others)) ↔ types = others := by
  have hlists : Rearranged (textList types) (textList others) ↔ types = others := by
    rw [textList, textList, Rearranged.list_iff, List.forall₂_map_left_iff,
      List.forall₂_map_right_iff]
    simp only [Rearranged.text_iff, List.forall₂_eq_eq_eq]
  rw [rel_said_iff, hlists]
  intro hvoid hvoid'
  rw [hlists, List.map_eq_nil_iff.mp (List.isEmpty_iff.mp hvoid),
    List.map_eq_nil_iff.mp (List.isEmpty_iff.mp hvoid')]

theorem rel_bool_iff {b c : Bool} :
    Option.Rel Rearranged (said (.bool b)) (said (.bool c)) ↔ b = c := by
  rw [rel_said_iff, Rearranged.bool_iff]
  intro hb hc
  rw [Rearranged.bool_iff]
  simpa [isVoid] using hb.trans hc.symm

theorem rel_list_iff {items others : List Json} :
    Option.Rel Rearranged (said (.list items)) (said (.list others)) ↔
      List.Forall₂ Rearranged items others := by
  rw [rel_said_iff, Rearranged.list_iff]
  intro hitems hothers
  rw [Rearranged.list_iff, List.isEmpty_iff.mp hitems, List.isEmpty_iff.mp hothers]
  exact .nil

theorem rel_part_iff {part other : Option Schema} :
    Option.Rel Rearranged (part.map toJson) (other.map toJson) ↔
      List.Forall₂ (fun a b ↦ Rearranged a.toJson b.toJson) part.toList other.toList := by
  cases part <;> cases other <;> simp

theorem rel_properties_iff {properties others : List (String × Schema)} :
    Option.Rel Rearranged (said (.object (properties.map fun (name, t) ↦ (name, t.toJson))))
        (said (.object (others.map fun (name, t) ↦ (name, t.toJson)))) ↔
      (Entries.names properties).Perm (Entries.names others) ∧
        ∀ name a b, (name, a) ∈ properties → (name, b) ∈ others →
          Rearranged a.toJson b.toJson := by
  rw [rel_said_iff, Rearranged.object_iff, Entries.names_map_snd, Entries.names_map_snd]
  · refine and_congr_right fun _ ↦ ⟨fun h name a b ha hb ↦ ?_, fun h name v w hv hw ↦ ?_⟩
    · exact h name _ _ (List.mem_map_of_mem ha) (List.mem_map_of_mem hb)
    · obtain ⟨p, hp, hv⟩ := List.mem_map.mp hv
      obtain ⟨q, hq, hw⟩ := List.mem_map.mp hw
      obtain ⟨rfl, rfl⟩ := Prod.mk.inj hv
      obtain ⟨hname, rfl⟩ := Prod.mk.inj hw
      exact h p.1 p.2 q.2 hp (hname ▸ hq)
  · intro hvoid hvoid'
    rw [List.isEmpty_iff.mp hvoid, List.isEmpty_iff.mp hvoid']
    exact .object .nil fun _ _ _ hv ↦ by cases hv

theorem rel_kept_iff {value other : Json} (hvalue : value.isVoid = true → value = .text "")
    (hother : other.isVoid = true → other = .text "") :
    Option.Rel Rearranged (said value) (said other) ↔ Rearranged value other := by
  refine rel_said_iff fun hv hw ↦ ?_
  rw [hvalue hv, hother hw]
  exact .text ""

theorem NormalNode.normal_keywords (h : s.NormalNode) : s.keywords.Normal := by
  obtain ⟨ref, line, -, rfl⟩ | ⟨-, hnormal⟩ := h
  · exact { Keywords.normal_blank line with }
  · exact hnormal

/-- Two nodes are written alike if they are alike but for the schemas below them, and those are
written alike. -/
theorem rearranged_toJson_iff (hs : s.NormalNode) (ht : t.NormalNode) :
    Rearranged s.toJson t.toJson ↔
      s.keywords.Alike t.keywords ∧
        ((Entries.names s.properties).Perm (Entries.names t.properties) ∧
          ∀ name a b, (name, a) ∈ s.properties → (name, b) ∈ t.properties →
            Rearranged a.toJson b.toJson) ∧
        ∀ p ∈ s.partLists.zip t.partLists,
          List.Forall₂ (fun a b ↦ Rearranged a.toJson b.toJson) p.1 p.2 := by
  have hs := hs.normal_keywords
  have ht := ht.normal_keywords
  rw [rearranged_toJson_iff_sayings, sayings, sayings, partLists, partLists]
  simp only [List.forall₂_cons, List.forall₂_nil_left_iff, rel_types_iff, rel_bool_iff,
    rel_properties_iff, rel_list_iff, List.forall₂_map_left_iff, List.forall₂_map_right_iff,
    rel_part_iff,
    rel_kept_iff hs.format ht.format, rel_kept_iff hs.title ht.title,
    rel_kept_iff hs.description ht.description, List.zip_cons_cons, List.zip_nil_left,
    List.forall_mem_cons]
  constructor
  · rintro ⟨href, htypes, hnullable, hproperties, hrequired, hitems, hallOf, honeOf, hanyOf,
      hnegated, hformat, htitle, hdescription, hconst, -⟩
    exact ⟨⟨href, htypes, hnullable, hrequired, hformat, htitle, hdescription, hconst⟩,
      hproperties, hitems, hallOf, honeOf, hanyOf, hnegated, by simp⟩
  · rintro ⟨h, hproperties, hitems, hallOf, honeOf, hanyOf, hnegated, -⟩
    exact ⟨h.ref, h.types, h.nullable, hproperties, h.required, hitems, hallOf, honeOf, hanyOf,
      hnegated, h.format, h.title, h.description, h.const, trivial⟩

theorem mem_children_of_mem_partLists {child : Schema} {part : List Schema}
    (hpart : part ∈ s.partLists) (hchild : child ∈ part) : child ∈ s.children := by
  simp only [partLists, List.mem_cons, List.not_mem_nil, or_false] at hpart
  refine mem_children_iff.mpr (.inr ?_)
  rcases hpart with rfl | rfl | rfl | rfl | rfl
  · exact .inl (Option.mem_toList.mp hchild)
  · exact .inr (.inl hchild)
  · exact .inr (.inr (.inl hchild))
  · exact .inr (.inr (.inr (.inl hchild)))
  · exact .inr (.inr (.inr (.inr (Option.mem_toList.mp hchild))))

/-- **Trees in normal form are written alike if they have the same shape.** -/
theorem rearranged_toJson_iff_sameShape (hs : s.Normal) (ht : t.Normal) :
    Rearranged s.toJson t.toJson ↔ s.SameShape t := by
  constructor
  · intro h
    induction s using children_induction generalizing t with
    | step s ih =>
      obtain ⟨hkeywords, ⟨hnames, hproperties⟩, hparts⟩ :=
        (rearranged_toJson_iff (hs s .self) (ht t .self)).mp h
      have hchild : ∀ a ∈ s.children, ∀ b ∈ t.children, Rearranged a.toJson b.toJson →
          a.SameShape b :=
        fun a ha b hb ↦ ih a ha (hs.of_mem_children ha) (ht.of_mem_children hb)
      refine .intro hkeywords hnames (fun name a b ha hb ↦ ?_) (fun p hp ↦ (hparts p hp).length_eq)
        fun p hp q hq ↦ ?_
      · exact hchild a (mem_children_of_mem_properties ha) b (mem_children_of_mem_properties hb)
          (hproperties name a b ha hb)
      · obtain ⟨hps, hpt⟩ := List.of_mem_zip hp
        obtain ⟨hqs, hqt⟩ := List.of_mem_zip hq
        exact hchild q.1 (mem_children_of_mem_partLists hps hqs) q.2
          (mem_children_of_mem_partLists hpt hqt) ((List.forall₂_iff_zip.mp (hparts p hp)).2 hq)
  · intro h
    induction h with
    | @intro s t hkeywords hnames _ hlengths _ ihproperties ihparts =>
      refine (rearranged_toJson_iff (hs s .self) (ht t .self)).mpr
        ⟨hkeywords, ⟨hnames, fun name a b ha hb ↦ ?_⟩, fun p hp ↦ ?_⟩
      · exact ihproperties name a b ha hb
          (hs.of_mem_children (mem_children_of_mem_properties ha))
          (ht.of_mem_children (mem_children_of_mem_properties hb))
      · refine List.forall₂_iff_zip.mpr ⟨hlengths p hp, fun {a b} hq ↦ ?_⟩
        obtain ⟨hps, hpt⟩ := List.of_mem_zip hp
        obtain ⟨hqs, hqt⟩ := List.of_mem_zip hq
        exact ihparts p hp _ hq (hs.of_mem_children (mem_children_of_mem_partLists hps hqs))
          (ht.of_mem_children (mem_children_of_mem_partLists hpt hqt))

end Members

/-- **The canonical text identifies the shape** of schemas that are read of decoded values: two of
them have one text if they differ at most in positions, in the order of properties and in the order
of members of the objects that they keep. -/
theorem canonicalText_eq_iff_sameShape {value other : Json} (hvalue : value.Decoded)
    (hother : other.Decoded) {location location' : String} {n m next next' : Nat} {s t : Schema}
    (hs : read value location n = .ok (s, next)) (ht : read other location' m = .ok (t, next')) :
    s.canonicalText = t.canonicalText ↔ s.SameShape t := by
  rw [Schema.canonicalText, Schema.canonicalText,
    Json.canonicalText_eq_iff (decoded_toJson (decodedNode_of_read hvalue hs))
      (decoded_toJson (decodedNode_of_read hother ht))]
  exact rearranged_toJson_iff_sameShape (normal_read hs) (normal_read ht)

/-- A schema with two properties, one of which is an object with two members. -/
def pairSchema : Json :=
  .object [("properties", .object
    [("b", .object [("type", .text "integer")]),
     ("a", .object [("const", .object [("y", .int 1), ("x", .null)]), ("title", .text "A")])])]

/-- The same schema with its members the other way around. -/
def swappedSchema : Json :=
  .object [("properties", .object
    [("a", .object [("title", .text "A"), ("const", .object [("x", .null), ("y", .int 1)])]),
     ("b", .object [("type", .text "integer")])])]

/-- What a schema with two properties is read as. -/
def pairNode : Schema :=
  .node (.blank 1)
    [("b", leaf { Keywords.blank 2 with types := ["integer"] }),
     ("a", leaf { Keywords.blank 3 with
        title := .text "A", const := some (.object [("y", .int 1), ("x", .null)]) })]
    none [] [] [] none

@[inherit_doc pairNode]
def swappedNode : Schema :=
  .node (.blank 7)
    [("a", leaf { Keywords.blank 8 with
        title := .text "A", const := some (.object [("x", .null), ("y", .int 1)]) }),
     ("b", leaf { Keywords.blank 9 with types := ["integer"] })]
    none [] [] [] none

theorem canonicalText_eq_iff_sameShape_swapped :
    pairSchema.Decoded ∧ swappedSchema.Decoded ∧
      read pairSchema "" 1 = .ok (pairNode, 4) ∧ read swappedSchema "" 7 = .ok (swappedNode, 10) ∧
      pairNode.canonicalText = swappedNode.canonicalText ∧ pairNode.SameShape swappedNode := by
  have hpair : pairSchema.Decoded := by simp [pairSchema, Entries.names]
  have hswapped : swappedSchema.Decoded := by simp [swappedSchema, Entries.names]
  have hread : read pairSchema "" 1 = .ok (pairNode, 4) := by cbv
  have hread' : read swappedSchema "" 7 = .ok (swappedNode, 10) := by cbv
  have htext : pairNode.canonicalText = swappedNode.canonicalText := by cbv
  exact ⟨hpair, hswapped, hread, hread', htext,
    (canonicalText_eq_iff_sameShape hpair hswapped hread hread').mp htext⟩

end Schema

end SchemaTypes
