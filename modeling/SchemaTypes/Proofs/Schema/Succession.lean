import Mathlib.Data.List.Forall2
import SchemaTypes.Proofs.Schema.Catalogue
import SchemaTypes.Proofs.Schema.Rereading

/-!
# The order in which a document is read

A document holds values that are read as schemas. They are listed here as they stand in the document
(`Document.schemaValues`): the catalogue of schemas before that of responses, a value before those
below it, and those in the order properties, items, `allOf`, `oneOf`, `anyOf`, `not`. Nothing stands
below a reference.

A loaded document has one node for each of these values, in the same order, and the nodes are
numbered from one on without a gap (`Document.numbered_of_load`). Hence the properties of a node
stand in the order of their numbers already, which is the order of the document.
-/

namespace SchemaTypes

/-! ## Values that are read as schemas -/

namespace Json

/-- The members of a schema object that count: none of them beside a reference. -/
def keywordMembers : Json → List (String × Json)
  | .object members => if (members.lookup "$ref").isSome then [] else members
  | _ => []

/-- The members that are read as properties of a schema object. -/
def namedUnder (members : List (String × Json)) : List (String × Json) :=
  match members.lookup "properties" with
  | some (.object named) => named
  | _ => []

/-- The values that are read as branches of a combinator. -/
def branchesUnder (members : List (String × Json)) (key : String) : List Json :=
  match members.lookup key with
  | some (.list branches) => branches
  | _ => []

/-- The members that are read as properties of a value. -/
def namedParts (value : Json) : List (String × Json) := namedUnder value.keywordMembers

/-- The values that are read as the schemas right below a value, in the order of reading. -/
def parts (value : Json) : List Json :=
  let members := value.keywordMembers
  (namedUnder members).map Prod.snd ++ (members.lookup "items").toList ++
    branchesUnder members "allOf" ++ branchesUnder members "oneOf" ++
    branchesUnder members "anyOf" ++ (members.lookup "not").toList

theorem namedUnder_eq_nil {members : List (String × Json)}
    (h : ∀ named, members.lookup "properties" ≠ some (.object named)) :
    namedUnder members = [] := by
  unfold namedUnder
  split
  · next named hnamed => exact absurd hnamed (h named)
  · rfl

theorem branchesUnder_eq_nil {members : List (String × Json)} {key : String}
    (h : ∀ branches, members.lookup key ≠ some (.list branches)) :
    branchesUnder members key = [] := by
  unfold branchesUnder
  split
  · next branches hbranches => exact absurd hbranches (h branches)
  · rfl

theorem keywordMembers_object {members : List (String × Json)}
    (h : members.lookup "$ref" = none) : (Json.object members).keywordMembers = members := by
  rw [keywordMembers, h]
  rfl

theorem keywordMembers_of_ref {members : List (String × Json)} {ref : Json}
    (h : members.lookup "$ref" = some ref) : (Json.object members).keywordMembers = [] := by
  rw [keywordMembers, h]
  rfl

theorem parts_eq_nil {value : Json} (h : value.keywordMembers = []) : value.parts = [] := by
  rw [parts, h]
  rfl

/-- What is read as a schema right below a value is found in it. -/
theorem subvalue_of_mem_parts {value sub : Json} (h : sub ∈ value.parts) :
    ∃ members, value = .object members ∧ Schema.Subvalue members sub := by
  cases value with
  | object members =>
    refine ⟨members, rfl, ?_⟩
    cases href : members.lookup "$ref" with
    | some ref =>
      rw [parts_eq_nil (keywordMembers_of_ref href)] at h
      cases h
    | none =>
      have hbranch : ∀ key ∈ ["allOf", "oneOf", "anyOf"], sub ∈ branchesUnder members key →
          Schema.Subvalue members sub := by
        intro key hkey hmem
        unfold branchesUnder at hmem
        split at hmem
        · next branches hbranches => exact .branch hkey hbranches hmem
        · cases hmem
      rw [parts, keywordMembers_object href] at h
      simp only [List.mem_append, List.mem_map, Prod.exists, exists_eq_right, Option.mem_toList,
        or_assoc] at h
      rcases h with ⟨name, hmem⟩ | hmem | hmem | hmem | hmem | hmem
      · unfold namedUnder at hmem
        split at hmem
        · next named hnamed => exact .property hnamed hmem
        · cases hmem
      · exact .part (by simp) hmem
      · exact hbranch _ (by simp) hmem
      · exact hbranch _ (by simp) hmem
      · exact hbranch _ (by simp) hmem
      · exact .part (by simp) hmem
  | _ => cases h

theorem sizeOf_lt_of_mem_parts {value sub : Json} (h : sub ∈ value.parts) :
    sizeOf sub < sizeOf value := by
  obtain ⟨members, rfl, hsub⟩ := subvalue_of_mem_parts h
  exact hsub.sizeOf_lt

/-- The values that are read as schemas of a value: itself before those below it. -/
def schemaValues (value : Json) : List Json :=
  value :: value.parts.attach.flatMap fun sub ↦ schemaValues sub.1
termination_by sizeOf value
decreasing_by exact sizeOf_lt_of_mem_parts sub.2

theorem schemaValues_eq (value : Json) :
    value.schemaValues = value :: value.parts.flatMap schemaValues := by
  rw [schemaValues]
  simp

end Json

/-! ## Nodes -/

namespace Schema

open Reader Json

/-- The nodes of a tree, a node before those below it. -/
def nodes (s : Schema) : List Schema := s :: s.children.attach.flatMap fun child ↦ nodes child.1
termination_by sizeOf s
decreasing_by exact sizeOf_lt_of_mem_children child.2

theorem nodes_eq (s : Schema) : s.nodes = s :: s.children.flatMap nodes := by
  rw [nodes]
  simp

/-- The nodes of a tree are what stands within it. -/
theorem mem_nodes_of_within {s t : Schema} (h : Within t s) : t ∈ s.nodes := by
  induction h with
  | self =>
    rw [nodes_eq]
    exact List.mem_cons_self
  | step hchild _ ih =>
    rw [nodes_eq]
    exact List.mem_cons_of_mem _ (List.mem_flatMap.mpr ⟨_, hchild, ih⟩)

theorem map_line_nodes (s : Schema) : s.nodes.map line = s.lines := by
  induction s using children_induction with
  | step s ih =>
    rw [nodes_eq, lines_eq, List.map_cons, List.map_flatMap]
    exact congrArg _ (List.flatMap_congr ih)

/-- A node has been read of a value somewhere. -/
def ReadSomewhere (value : Json) (s : Schema) : Prop :=
  ∃ location n next, read value location n = .ok (s, next)

/-- A property has been read of a member, and has its name. -/
def ReadUnder (member : String × Json) (property : String × Schema) : Prop :=
  property.1 = member.1 ∧ ReadSomewhere member.2 property.2

section Below

variable {members : List (String × Json)} {location : String}

theorem forall₂_readBranches (values : List Json) (location : String) (index : Nat) :
    Ensures (readBranches values location index) fun _ branches _ ↦
      List.Forall₂ ReadSomewhere values branches := by
  induction values generalizing index with
  | nil =>
    rw [readBranches]
    exact ensures_pure fun n ↦ .nil
  | cons v rest ih =>
    rw [readBranches]
    intro n branches next hread
    obtain ⟨s, middle, more, hs, hmore, rfl⟩ := of_cons_eq_ok hread
    exact .cons ⟨_, n, middle, hs⟩ (ih (index + 1) middle more next hmore)

theorem forall₂_propertiesReader :
    Ensures (propertiesReader members location) fun _ properties _ ↦
      List.Forall₂ ReadUnder (namedUnder members) properties := by
  refine ensures_propertiesReader (fun named hnamed ↦ ?_) fun hnone n ↦ ?_
  · rw [namedUnder, hnamed, Document.readProperties_eq_readEach]
    intro n properties next hread
    refine (Document.forall₂_readEach hread).imp ?_
    rintro member property ⟨hname, m, last, hproperty⟩
    exact ⟨hname, _, m, last, hproperty⟩
  · rw [namedUnder_eq_nil hnone]
    exact .nil

theorem forall₂_partReader (key : String) :
    Ensures (partReader members key location) fun _ part _ ↦
      List.Forall₂ ReadSomewhere (members.lookup key).toList part.toList := by
  refine ensures_partReader (fun value hvalue n s next hread ↦ ?_) fun hnone n ↦ ?_
  · rw [hvalue]
    exact .cons ⟨_, n, next, hread⟩ .nil
  · rw [hnone]
    exact .nil

theorem forall₂_branchesReader (key : String) :
    Ensures (branchesReader members key location) fun _ branches _ ↦
      List.Forall₂ ReadSomewhere (branchesUnder members key) branches := by
  refine ensures_branchesReader (fun values hvalues ↦ ?_) fun hnone n ↦ ?_
  · rw [branchesUnder, hvalues]
    exact forall₂_readBranches values location 0
  · rw [branchesUnder_eq_nil hnone]
    exact .nil

end Below

/-- What stands right below a node has been read of what stands right below the value, in the same
order, and properties under the same names. -/
theorem forall₂_children {value : Json} {location : String} {n next : Nat} {s : Schema}
    (hread : read value location n = .ok (s, next)) :
    List.Forall₂ ReadSomewhere value.parts s.children ∧
      List.Forall₂ ReadUnder value.namedParts s.properties := by
  have hnothing : ∀ {members : List (String × Json)} {ref : Json},
      members.lookup "$ref" = some ref →
        (Json.object members).parts = [] ∧ (Json.object members).namedParts = [] := fun href ↦
    have hnil := keywordMembers_of_ref href
    ⟨parts_eq_nil hnil, by rw [namedParts, hnil]; rfl⟩
  cases wasRead_of_read hread with
  | bool b => exact ⟨.nil, .nil⟩
  | void href =>
    rw [(hnothing href).1, (hnothing href).2]
    exact ⟨.nil, .nil⟩
  | reference href _ =>
    rw [(hnothing href).1, (hnothing href).2]
    exact ⟨.nil, .nil⟩
  | @object members _ _ href hobject =>
    obtain ⟨-, hproperties, hitems, hallOf, honeOf, hanyOf, hnegated⟩ := hobject
    have hnamed := forall₂_propertiesReader _ _ _ hproperties
    have hvalues := List.forall₂_map_left_iff.mpr
      (List.forall₂_map_right_iff.mpr (hnamed.imp fun _ _ h ↦ h.2))
    rw [parts, namedParts, keywordMembers_object href]
    refine ⟨?_, hnamed⟩
    refine List.rel_append (List.rel_append (List.rel_append (List.rel_append (List.rel_append
      hvalues ?_) ?_) ?_) ?_) ?_
    · exact forall₂_partReader "items" _ _ _ hitems
    · exact forall₂_branchesReader "allOf" _ _ _ hallOf
    · exact forall₂_branchesReader "oneOf" _ _ _ honeOf
    · exact forall₂_branchesReader "anyOf" _ _ _ hanyOf
    · exact forall₂_partReader "not" _ _ _ hnegated

/-- A node is what reading a value gives where it begins at the number of the node. Its properties
are read of the members in turn, and are in order as they stand. -/
structure ReadOf (value : Json) (s : Schema) : Prop where
  read : ∃ location next, Schema.read value location s.line = .ok (s, next)
  properties : List.Forall₂ ReadUnder value.namedParts s.properties
  sorted : s.sortedProperties = s.properties

theorem readOf_of_read {value : Json} {location : String} {n next : Nat} {s : Schema}
    (hread : Schema.read value location n = .ok (s, next)) : ReadOf value s := by
  obtain ⟨rfl, -, hordered⟩ := ordered_read value location n s next hread
  refine ⟨⟨location, next, hread⟩, (forall₂_children hread).2, ?_⟩
  exact sorted_eq_self ((hordered s .self).imp fun hab ↦ decide_eq_true hab)

/-- **A tree has one node for each value that is read as a schema**, in the same order. -/
theorem forall₂_nodes {value : Json} {location : String} {n next : Nat} {s : Schema}
    (hread : Schema.read value location n = .ok (s, next)) :
    List.Forall₂ ReadOf value.schemaValues s.nodes := by
  induction value using schema_induction generalizing location n s next with
  | step value ih =>
    -- The induction needs to know of every child that it has been read of a value below this one.
    have hchildren : List.Forall₂ (fun sub t ↦ sub ∈ value.parts ∧ ReadSomewhere sub t)
        value.parts s.children :=
      (List.forall₂_and_left _ _).mpr ⟨fun sub hsub ↦ hsub, (forall₂_children hread).1⟩
    rw [schemaValues_eq, nodes_eq]
    refine .cons (readOf_of_read hread) (List.rel_flatMap hchildren ?_)
    rintro sub t ⟨hsub, location, m, last, ht⟩
    obtain ⟨members, rfl, hbelow⟩ := subvalue_of_mem_parts hsub
    exact ih members rfl sub hbelow ht

end Schema

/-! ## Documents -/

namespace Document

open Schema Schema.Reader

/-- The nodes of a document: those of its schemas before those of its responses. -/
def nodes (d : Document) : List Schema := d.entries.flatMap fun e ↦ e.2.nodes

theorem nodes_eq_append (d : Document) :
    d.nodes = (d.schemas.flatMap fun p ↦ p.2.nodes) ++ d.responses.flatMap fun p ↦ p.2.nodes := by
  rw [nodes, entries, List.flatMap_append, List.flatMap_map, List.flatMap_map]

/-- The value that an entry of the catalogue of responses is read of. -/
def bodyValue (response : Json) : Json :=
  match responseSchema response with
  | .ok value => value
  | .error _ => .null

/-- The values of a document that are read as schemas, in the order of reading. -/
def schemaValues (value : Json) : List Json :=
  match catalogues value with
  | .ok (schemas, .object responses) =>
    schemas.flatMap (fun entry ↦ entry.2.schemaValues) ++
      responses.flatMap fun entry ↦ (bodyValue entry.2).schemaValues
  | _ => []

/-- A catalogue that is read in turn is read one entry behind the other. -/
theorem inTurn_readEach {f : String → Json → Reader Schema} {entries : List (String × Json)}
    {n next : Nat} {schemas : List (String × Schema)}
    (hread : readEach f entries n = .ok (schemas, next)) :
    InTurn (fun m s last ↦ ∃ name value, f name value m = .ok (s, last)) n
      (schemas.map Prod.snd) next := by
  induction entries generalizing n schemas with
  | nil =>
    cases hread
    exact .nil _
  | cons e rest ih =>
    rw [readEach] at hread
    obtain ⟨s, middle, more, hs, hmore, rfl⟩ := of_cons_eq_ok hread
    exact .cons ⟨e.1, e.2, hs⟩ (ih hmore)

section Catalogue

variable {f : String → Json → Reader Schema} {g : Json → Json} {entries : List (String × Json)}
  {n next : Nat} {schemas : List (String × Schema)}
  (hf : ∀ name value m s last, f name value m = .ok (s, last) →
    ∃ location, Schema.read (g value) location m = .ok (s, last))
  (hread : readEach f entries n = .ok (schemas, next))

include hf hread

theorem lines_readEach :
    ∃ count, next = n + count ∧
      (schemas.flatMap fun p ↦ p.2.nodes).map line = List.range' n count := by
  have hturn : InTurn (fun m s last ↦ ∃ count, last = m + count ∧ s.lines = List.range' m count)
      n (schemas.map Prod.snd) next := by
    refine (inTurn_readEach hread).imp ?_
    rintro m s last ⟨name, value, hs⟩
    obtain ⟨location, hs⟩ := hf name value m s last hs
    exact lines_read hs
  obtain ⟨count, hnext, hlines⟩ := hturn.lines_eq
  refine ⟨count, hnext, ?_⟩
  rw [← hlines, List.map_flatMap, List.flatMap_map]
  simp only [map_line_nodes]

theorem forall₂_nodes_readEach :
    List.Forall₂ ReadOf (entries.flatMap fun entry ↦ (g entry.2).schemaValues)
      (schemas.flatMap fun p ↦ p.2.nodes) := by
  refine List.rel_flatMap (forall₂_readEach hread) ?_
  rintro entry p ⟨-, m, last, hs⟩
  obtain ⟨location, hs⟩ := hf _ _ _ _ _ hs
  exact forall₂_nodes hs

end Catalogue

theorem read_of_schemaReader (name : String) (value : Json) (m : Nat) (s : Schema) (last : Nat)
    (hread : schemaReader name value m = .ok (s, last)) :
    ∃ location, Schema.read value location m = .ok (s, last) := ⟨_, hread⟩

theorem read_of_responseReader (name : String) (response : Json) (m : Nat) (s : Schema) (last : Nat)
    (hread : responseReader name response m = .ok (s, last)) :
    ∃ location, Schema.read (bodyValue response) location m = .ok (s, last) := by
  obtain ⟨value, _, hvalue, hschema⟩ := of_bind_eq_ok hread
  obtain ⟨hvalue, rfl⟩ := of_liftM_eq_ok hvalue
  cases hbody : responseSchema response with
  | error e =>
    rw [hbody] at hvalue
    cases hvalue
  | ok body =>
    rw [hbody] at hvalue
    cases hvalue
    rw [bodyValue, hbody]
    exact ⟨_, hschema⟩

/-- **The nodes of a loaded document are numbered in the order of the document.** The numbers are
those from one on, without a gap, and the nodes are those of the values that are read as schemas, in
turn; so properties stand in the order of their numbers. -/
theorem numbered_of_load {value : Json} {d : Document} (hload : load value = .ok d) :
    d.nodes.map line = List.range' 1 (schemaValues value).length ∧
      List.Forall₂ ReadOf (schemaValues value) d.nodes ∧
      ∀ e ∈ d.entries, ∀ t, Within t e.2 → t ∈ d.nodes := by
  obtain ⟨schemas, responses, hcatalogues⟩ := exists_catalogues_eq_ok hload
  obtain ⟨m, next, hschemas, hresponses⟩ := (load_eq_ok_iff hcatalogues).mp hload
  obtain ⟨count, rfl, hlines⟩ := lines_readEach read_of_schemaReader hschemas
  obtain ⟨more, -, hmore⟩ := lines_readEach read_of_responseReader hresponses
  have hvalues : schemaValues value = (schemas.flatMap fun entry ↦ entry.2.schemaValues) ++
      responses.flatMap fun entry ↦ (bodyValue entry.2).schemaValues := by
    rw [schemaValues, hcatalogues]
  have hnodes : List.Forall₂ ReadOf (schemaValues value) d.nodes := by
    rw [hvalues, nodes_eq_append]
    exact List.rel_append (forall₂_nodes_readEach read_of_schemaReader hschemas)
      (forall₂_nodes_readEach read_of_responseReader hresponses)
  have hnumbers : d.nodes.map line = List.range' 1 (count + more) := by
    rw [nodes_eq_append, List.map_append, hlines, hmore, List.range'_append_1]
  have hcount : count + more = (schemaValues value).length := by
    have hlength := congrArg List.length hnumbers
    rw [List.length_map, List.length_range'] at hlength
    rw [hnodes.length_eq, hlength]
  rw [← hcount]
  refine ⟨hnumbers, hnodes, fun e he t ht ↦ ?_⟩
  exact List.mem_flatMap.mpr ⟨e, he, mem_nodes_of_within ht⟩

/-- A page, whose keywords are not in the order of reading, and the body of a failure. -/
def pagesDocument : Json :=
  .object
    [("components", .object
      [("schemas", .object
        [("Page", .object
          [("not", .bool false),
           ("oneOf", .list [.object [], .bool true]),
           ("items", .object [("type", .text "string")]),
           ("properties", .object
             [("next", .object [("properties", .object [("token", .object [])])]),
              ("data", .object [("$ref", .text "#/components/schemas/Data"),
                ("properties", .object [("unread", .object [])])])])])]),
       ("responses", .object
        [("Failure", .object
          [("content", .object
            [("application/json", .object
              [("schema", .object
                [("properties", .object [("code", .object [])])])])])])])])]

/-- What a page and the body of a failure are loaded as. -/
def loadedPages : Document where
  schemas :=
    [("Page", .node (.blank 1)
      [("next", .node (.blank 2) [("token", .leaf (.blank 3))] none [] [] [] none),
       ("data", .reference (.text "#/components/schemas/Data") 4)]
      (some (.leaf { Keywords.blank 5 with types := ["string"] })) []
      [.leaf (.blank 6), .leaf (.blank 7)] [] (some (.leaf (.blank 8))))]
  responses := [("Failure", .node (.blank 9) [("code", .leaf (.blank 10))] none [] [] [] none)]

theorem numbered_of_load_pages :
    load pagesDocument = .ok loadedPages ∧
      loadedPages.nodes.map line = List.range' 1 (schemaValues pagesDocument).length ∧
      List.Forall₂ ReadOf (schemaValues pagesDocument) loadedPages.nodes ∧
      ∀ e ∈ loadedPages.entries, ∀ t, Within t e.2 → t ∈ loadedPages.nodes := by
  have hload : load pagesDocument = .ok loadedPages := by cbv
  exact ⟨hload, numbered_of_load hload⟩

end Document

end SchemaTypes
