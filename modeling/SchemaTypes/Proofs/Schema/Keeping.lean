import SchemaTypes.Proofs.Json.Typing
import SchemaTypes.Proofs.Schema.Catalogue
import SchemaTypes.Proofs.Schema.Rereading

/-!
# What is kept of a document

A property of values is hereditary when a value hands it down to the values in it
(`Json.Hereditary`). What is read of a document is kept as it is written there, so a document with
such a property has schemas that keep values with that property (`Document.keeps_of_load`), at all
nodes: under their keywords, as types and as names of properties.
-/

namespace SchemaTypes

/-- What holds of a value holds of the values in it, and of those that stand for missing ones. -/
structure Json.Hereditary (R : Json → Prop) : Prop where
  blank : R (.text "")
  nothing : R (.object [])
  member {members : List (String × Json)} : R (.object members) → ∀ m ∈ members, R m.2
  item {items : List Json} : R (.list items) → ∀ item ∈ items, R item

namespace Schema

/-- A node keeps values of which something holds, or texts that are made of them. -/
structure Keeps (R : Json → Prop) (s : Schema) : Prop where
  properties : s.properties = [] ∨
    ∃ named, R (.object named) ∧ Entries.names s.properties = Entries.names named
  ref : ∀ value ∈ s.ref, R value
  types : ∀ type ∈ s.types, type = "null" ∨ R (.text type)
  required : ∀ value ∈ s.keywords.required, R value ∨ value.IsText
  format : R s.keywords.format
  title : R s.keywords.title
  description : R s.keywords.description
  const : ∀ value ∈ s.keywords.const, R value

/-- Texts that are all that a list holds make up the list. -/
theorem eq_map_of_textItems_eq_some {items : List Json} {texts : List String}
    (h : textItems items = some texts) : items = texts.map Json.text := by
  induction items generalizing texts with
  | nil =>
    cases h
    rfl
  | cons item rest ih =>
    cases item with
    | text s =>
      obtain ⟨more, hmore, rfl⟩ := Option.map_eq_some_iff.mp h
      rw [ih hmore, List.map_cons]
    | _ => cases h

section

variable {R : Json → Prop} (hR : Json.Hereditary R) {members : List (String × Json)}
  (h : R (.object members))

include hR h

theorem hereditary_lookup {key : String} {value : Json} (hvalue : members.lookup key = some value) :
    R value :=
  hR.member h _ (Entries.mem_of_lookup hvalue)

theorem Subvalue.hereditary {sub : Json} (hsub : Subvalue members sub) : R sub := by
  rcases hsub with ⟨hfound, hmem⟩ | ⟨-, hfound⟩ | ⟨-, hfound, hmem⟩
  · exact hR.member (hereditary_lookup hR h hfound) _ hmem
  · exact hereditary_lookup hR h hfound
  · exact hR.item (hereditary_lookup hR h hfound) _ hmem

theorem hereditary_meaningful (key : String) : R (meaningful members key) := by
  unfold meaningful
  split
  · next value hvalue =>
    split
    · exact hR.blank
    · exact hereditary_lookup hR h hvalue
  · exact hR.blank

theorem hereditary_declaredTypes {location : String} {types : List String}
    (htypes : declaredTypes members location = .ok types) : ∀ type ∈ types, R (.text type) := by
  unfold declaredTypes at htypes
  split at htypes
  · cases htypes
    exact List.forall_mem_nil _
  · cases htypes
    exact List.forall_mem_nil _
  · next hfound =>
    cases htypes
    exact List.forall_mem_singleton.mpr (hereditary_lookup hR h hfound)
  · next items hfound =>
    split at htypes
    · next texts htexts =>
      cases htypes
      have hitems := hR.item (hereditary_lookup hR h hfound)
      rw [eq_map_of_textItems_eq_some htexts] at hitems
      exact List.forall_mem_map.mp hitems
    · cases htypes
  · cases htypes

/-- Where required names are not listed, they are made of keys or characters. -/
theorem hereditary_requiredNames {required : List Json}
    (hrequired : requiredNames members = .ok required) :
    ∀ value ∈ required, R value ∨ value.IsText := by
  unfold requiredNames at hrequired
  split at hrequired
  · cases hrequired
    exact List.forall_mem_nil _
  next value hfound =>
  split at hrequired
  · cases hrequired
    exact List.forall_mem_nil _
  cases value with
  | list items =>
    cases hrequired
    exact fun item hitem ↦ .inl (hR.item (hereditary_lookup hR h hfound) item hitem)
  | object named =>
    cases hrequired
    exact List.forall_mem_map.mpr fun m _ ↦ .inr ⟨m.1, rfl⟩
  | text text =>
    cases hrequired
    exact List.forall_mem_map.mpr fun c _ ↦ .inr ⟨_, rfl⟩
  | _ => cases hrequired

/-- The keywords of a schema object keep values of the object. -/
theorem keeps_readKeywords {s : Schema} {location : String} {n next : Nat}
    (hread : Keywords.read members location n = .ok (s.keywords, next))
    (hproperties : s.properties = [] ∨ ∃ named, members.lookup "properties" = some (.object named) ∧
      Entries.names s.properties = Entries.names named) : s.Keeps R := by
  have href := ref_readKeywords hread
  rw [Keywords.read] at hread
  obtain ⟨line, _, -, hread⟩ := Reader.of_bind_eq_ok hread
  obtain ⟨declared, _, hdeclared, hread⟩ := Reader.of_bind_eq_ok hread
  obtain ⟨required, _, hrequired, hread⟩ := Reader.of_bind_eq_ok hread
  have hkeywords := congrArg Prod.fst (Except.ok.inj hread)
  dsimp only at hkeywords
  have htypes := hereditary_declaredTypes hR h (Reader.of_liftM_eq_ok hdeclared).1
  refine ⟨?_, ?_, ?_, ?_, ?_, ?_, ?_, ?_⟩
  · obtain hnone | ⟨named, hnamed, hnames⟩ := hproperties
    · exact .inl hnone
    · exact .inr ⟨named, hereditary_lookup hR h hnamed, hnames⟩
  · rw [Schema.ref, href]
    rintro _ ⟨⟩
  · rw [Schema.types, ← hkeywords]
    intro type htype
    unfold withNull at htype
    split at htype
    · rcases List.mem_append.mp htype with hmem | hnull
      · exact .inr (htypes type hmem)
      · exact .inl (List.mem_singleton.mp hnull)
    · exact .inr (htypes type htype)
  · rw [← hkeywords]
    exact hereditary_requiredNames hR h (Reader.of_liftM_eq_ok hrequired).1
  · rw [← hkeywords]
    exact hereditary_meaningful hR h _
  · rw [← hkeywords]
    exact hereditary_meaningful hR h _
  · rw [← hkeywords]
    exact hereditary_meaningful hR h _
  · rw [← hkeywords]
    exact fun value hvalue ↦ hereditary_lookup hR h hvalue

end

variable {R : Json → Prop} (hR : Json.Hereditary R)

include hR

theorem keeps_leaf (k : Keywords) (href : ∀ value ∈ k.ref, R value)
    (h : k = { Keywords.blank k.line with ref := k.ref }) : (leaf k).Keeps R where
  properties := .inl rfl
  ref := href
  types := by
    rw [Schema.types, leaf, Schema.keywords, h]
    exact List.forall_mem_nil _
  required := by
    rw [leaf, Schema.keywords, h]
    exact List.forall_mem_nil _
  format := by
    rw [leaf, Schema.keywords, h]
    exact hR.blank
  title := by
    rw [leaf, Schema.keywords, h]
    exact hR.blank
  description := by
    rw [leaf, Schema.keywords, h]
    exact hR.blank
  const := by
    rw [leaf, Schema.keywords, h]
    rintro _ ⟨⟩

/-- **What is read of a value keeps what is in the value**, at all nodes. -/
theorem keeps_of_read {value : Json} (h : R value) {location : String} {n next : Nat} {s : Schema}
    (hread : read value location n = .ok (s, next)) : ∀ t, Within t s → t.Keeps R := by
  induction value using schema_induction generalizing location n s next with
  | step value ih =>
    have hleaf : ∀ k : Keywords, (leaf k).Keeps R → ∀ t, Within t (leaf k) → t.Keeps R :=
      fun k hk ↦ forall_within hk fun child hchild ↦ by cases hchild
    obtain ⟨rfl, -⟩ | ⟨members, ref, rfl, href, -, rfl, -⟩ | ⟨members, rfl, hnode⟩ :=
      read_cases hread
    · exact hleaf _ (keeps_leaf hR _ (by rintro _ ⟨⟩) rfl)
    · refine hleaf _ (keeps_leaf hR _ ?_ rfl)
      rintro _ ⟨⟩
      exact hereditary_lookup hR h href
    · obtain ⟨location, hkeywords⟩ := hnode.keywords
      refine forall_within (keeps_readKeywords hR h hkeywords hnode.properties) ?_
      intro child hchild
      obtain ⟨_, _, sub, location, hsub, hread⟩ := hnode.children.exists_of_mem hchild
      exact ih members rfl sub hsub (hsub.hereditary hR h) hread

end Schema

/-! ## Documents -/

namespace Document

open Schema Schema.Reader

variable {R : Json → Prop} (hR : Json.Hereditary R)

include hR

theorem hereditary_memberOf {value member : Json} {key : String} (h : R value)
    (hmember : memberOf value key = .ok member) : R member := by
  obtain ⟨members, hmembers, hchosen⟩ := exists_of_bind_eq_ok hmember
  have hvalue : value = .object members := by
    cases value <;> cases hmembers
    rfl
  subst hvalue
  split at hchosen
  · next found hfound =>
    cases hchosen
    split
    · exact hR.nothing
    · exact hereditary_lookup hR h hfound
  · cases hchosen
    exact hR.nothing

theorem hereditary_responseSchema {response body : Json} (h : R response)
    (hbody : responseSchema response = .ok body) : R body := by
  obtain ⟨content, hcontent, hbody⟩ := exists_of_bind_eq_ok hbody
  obtain ⟨media, hmedia, hbody⟩ := exists_of_bind_eq_ok hbody
  exact hereditary_memberOf hR (hereditary_memberOf hR (hereditary_memberOf hR h hcontent) hmedia)
    hbody

/-- The catalogues of a document are in it. -/
theorem hereditary_catalogues {value : Json} {schemas responses : List (String × Json)}
    (h : R value)
    (hcatalogues : catalogues value = .ok (schemas, .object responses)) :
    (∀ entry ∈ schemas, R entry.2) ∧ ∀ entry ∈ responses, R entry.2 := by
  obtain ⟨members, hmembers, hfound⟩ := exists_of_bind_eq_ok hcatalogues
  have hvalue : value = .object members := by
    cases value <;> cases hmembers
    rfl
  subst hvalue
  split at hfound
  · next components hcomponents =>
    have hin := hereditary_lookup hR h hcomponents
    split at hfound
    · next found hschemas =>
      obtain ⟨rfl, hresponses⟩ := Prod.mk.inj (Except.ok.inj hfound)
      refine ⟨hR.member (hereditary_lookup hR hin hschemas), hR.member ?_⟩
      rw [← hresponses]
      split
      · exact hR.nothing
      · cases hlookup : components.lookup "responses" with
        | none => exact hR.nothing
        | some value => exact hereditary_lookup hR hin hlookup
    · cases hfound
  · cases hfound

/-- **A document keeps what is in the value that it is loaded of.** -/
theorem keeps_of_load {value : Json} (h : R value) {d : Document} (hload : load value = .ok d) :
    ∀ e ∈ d.entries, ∀ t, Within t e.2 → t.Keeps R := by
  obtain ⟨schemas, responses, hcatalogues⟩ := exists_catalogues_eq_ok hload
  obtain ⟨m, next, hschemas, hresponses⟩ := (load_eq_ok_iff hcatalogues).mp hload
  obtain ⟨hin, hinResponses⟩ := hereditary_catalogues hR h hcatalogues
  intro e he
  rcases List.mem_append.mp he with he | he
  · obtain ⟨p, hp, rfl⟩ := List.mem_map.mp he
    obtain ⟨entry, hentry, _, _, hread⟩ := exists_read_of_mem hschemas hp
    exact keeps_of_read hR (hin _ hentry) hread
  · obtain ⟨p, hp, rfl⟩ := List.mem_map.mp he
    obtain ⟨entry, hentry, _, _, hread⟩ := exists_read_of_mem hresponses hp
    obtain ⟨body, _, hbody, hread⟩ := of_bind_eq_ok hread
    have hbody := (of_liftM_eq_ok hbody).1
    cases hresponse : responseSchema entry.2 with
    | error e =>
      rw [hresponse] at hbody
      cases hbody
    | ok found =>
      rw [hresponse] at hbody
      cases hbody
      exact keeps_of_read hR (hereditary_responseSchema hR (hinResponses _ hentry) hresponse) hread

end Document

end SchemaTypes
