import Mathlib.Logic.Relation
import SchemaTypes.Proofs.Schema.Catalogue
import SchemaTypes.Proofs.Schema.Rereading

/-!
# Spellings of a document

A document can be spelled in several ways. The keywords of a schema object may stand in any order,
and a nullable flag beside declared types may be written as one more declared type. What is not read
may say anything. All of this is one relation between documents (`Respelled`): a change at a single
place, where the place tells what is read there (`Site`).

A change at one place leaves what is read there as it is (`Site.ReadsAlike`), and so what is read of
all that is around it: readers find the values they read by their keys, so that all values but the
one that has changed are found as before. Hence all spellings of a document are loaded as the same
document, or fail for the same reason (`Document.load_eq_of_respelled`).
-/

namespace SchemaTypes

/-- Where a value stands in a document, by what is read of it. -/
inductive Site where
  | document
  | components
  /-- The catalogue of schemas. -/
  | schemas
  /-- The catalogue of responses. -/
  | responses
  | response
  /-- The bodies of a response by their formats. -/
  | content
  /-- The body of a response in the format that is read. -/
  | media
  | schema
  /-- The properties of a schema by their names. -/
  | properties
  /-- The branches of a combinator. -/
  | branches
  /-- A value that is taken as it is. -/
  | plain
  /-- A value that is not looked at. -/
  | unread
deriving DecidableEq, Repr

namespace Site

/-- Keywords under which a schema stands. -/
def partKeys : List String := ["items", "not"]

/-- Keywords under which a list of schemas stands. -/
def branchKeys : List String := ["allOf", "oneOf", "anyOf"]

/-- Keywords whose values are taken as they are. -/
def plainKeys : List String :=
  ["$ref", "type", "nullable", "required", "format", "title", "description", "const"]

/-- Where the value of a member stands. -/
def below : Site → String → Site
  | document, key => if key = "components" then components else unread
  | components, key =>
    if key = "schemas" then schemas else if key = "responses" then responses else unread
  | schemas, _ | properties, _ => schema
  | responses, _ => response
  | response, key => if key = "content" then content else unread
  | content, key => if key = "application/json" then media else unread
  | media, key => if key = "schema" then schema else unread
  | schema, key =>
    if key = "properties" then properties
    else if key ∈ partKeys then schema
    else if key ∈ branchKeys then branches
    else if key ∈ plainKeys then plain
    else unread
  | branches, _ | plain, _ => plain
  | unread, _ => unread

theorem below_schema_of_mem_partKeys : ∀ key ∈ partKeys, schema.below key = schema := by decide

theorem below_schema_of_mem_branchKeys : ∀ key ∈ branchKeys, schema.below key = branches := by
  decide

theorem below_schema_of_mem_plainKeys : ∀ key ∈ plainKeys, schema.below key = plain := by decide

end Site

/-- A value declares types: one by its name, or those of a list. -/
inductive SpellsTypes : Json → List String → Prop
  | single (type : String) : SpellsTypes (.text type) [type]
  | list (types : List String) : SpellsTypes (Schema.textList types) types

/-- A value says the same as another one in other words, at one place of it. -/
inductive Respelled : Site → Json → Json → Prop
  /-- The keywords of a schema object, which are distinct, stand in any order. -/
  | reordered {members members' : List (String × Json)} :
      (Entries.names members).Nodup → members'.Perm members →
        Respelled .schema (.object members) (.object members')
  /-- A nullable flag is one more declared type beside others, unless it is among them. -/
  | nullable {declared : Json} {types : List String} {rest : List (String × Json)} :
      SpellsTypes declared types → types ≠ [] → "null" ∉ types → "nullable" ∉ Entries.names rest →
        Respelled .schema (.object (("nullable", .bool true) :: ("type", declared) :: rest))
          (.object (("type", Schema.textList (types ++ ["null"])) :: rest))
  /-- What is not read may say anything. -/
  | unread (value value' : Json) : Respelled .unread value value'
  /-- A member is spelled in other words. -/
  | member {site : Site} {key : String} {value value' : Json}
      (before after : List (String × Json)) :
      Respelled (site.below key) value value' →
        Respelled site (.object (before ++ (key, value) :: after))
          (.object (before ++ (key, value') :: after))
  /-- A branch is spelled in other words. -/
  | branch {value value' : Json} (before after : List Json) :
      Respelled .schema value value' →
        Respelled .branches (.list (before ++ value :: after)) (.list (before ++ value' :: after))

/-! ## Members of which one has changed -/

/-- Where the value of one member has changed, the same is found under every key, but that perhaps
the values of the member are found under its own one. -/
theorem Entries.lookup_replaced {α : Type} (key other : String) (value value' : α)
    (before after : List (String × α)) :
    (before ++ (key, value') :: after).lookup other =
        (before ++ (key, value) :: after).lookup other ∨
      other = key ∧ (before ++ (key, value) :: after).lookup other = some value ∧
        (before ++ (key, value') :: after).lookup other = some value' := by
  induction before with
  | nil =>
    rw [List.nil_append, List.nil_append, lookup_cons_eq_ite, lookup_cons_eq_ite]
    by_cases hkey : other = key
    · exact .inr ⟨hkey, if_pos hkey, if_pos hkey⟩
    · rw [if_neg hkey, if_neg hkey]
      exact .inl rfl
  | cons e before ih =>
    rw [List.cons_append, List.cons_append, lookup_cons_eq_ite, lookup_cons_eq_ite]
    by_cases hfirst : other = e.1
    · rw [if_pos hfirst, if_pos hfirst]
      exact .inl rfl
    · rw [if_neg hfirst, if_neg hfirst]
      exact ih

/-! ## Schemas -/

namespace Schema

theorem requiredNames_congr {members members' : List (String × Json)}
    (h : members'.lookup "required" = members.lookup "required") :
    requiredNames members' = requiredNames members := by
  rw [requiredNames, requiredNames, h]

theorem meaningful_congr {members members' : List (String × Json)} {key : String}
    (h : members'.lookup key = members.lookup key) :
    meaningful members' key = meaningful members key := by
  rw [meaningful, meaningful, h]

/-- What is read of the keywords of an object hangs on the values found under them. -/
theorem read_keywords_congr {members members' : List (String × Json)}
    (h : ∀ key ∈ Site.plainKeys, members'.lookup key = members.lookup key) (location : String) :
    Keywords.read members' location = Keywords.read members location := by
  have htypes : declaredTypes members' location = declaredTypes members location := by
    rw [declaredTypes, declaredTypes, h "type" (by decide)]
  have hflag : nullableFlag members' = nullableFlag members := by
    rw [nullableFlag, nullableFlag, h "nullable" (by decide)]
  rw [Keywords.read, Keywords.read, htypes, hflag, requiredNames_congr (h "required" (by decide)),
    meaningful_congr (h "format" (by decide)), meaningful_congr (h "title" (by decide)),
    meaningful_congr (h "description" (by decide)), h "const" (by decide)]

/-- Two objects say the same: their keywords are read alike, and the schemas below them, too. -/
structure SaysAlike (members members' : List (String × Json)) : Prop where
  ref : members'.lookup "$ref" = members.lookup "$ref"
  keywords (location : String) : Keywords.read members' location = Keywords.read members location
  properties (location : String) :
    propertiesReader members' location = propertiesReader members location
  part : ∀ key ∈ Site.partKeys, ∀ location,
    partReader members' key location = partReader members key location
  branches : ∀ key ∈ Site.branchKeys, ∀ location,
    branchesReader members' key location = branchesReader members key location

/-- Objects that say the same are read alike. -/
theorem SaysAlike.read_eq {members members' : List (String × Json)} (h : SaysAlike members members')
    (location : String) : read (.object members') location = read (.object members) location := by
  cases href : members.lookup "$ref" with
  | some ref =>
    have href' : members'.lookup "$ref" = some ref := h.ref.trans href
    rw [read_object_of_ref href, read_object_of_ref href']
    cases ref <;> rfl
  | none =>
    have href' : members'.lookup "$ref" = none := h.ref.trans href
    rw [read_object href, read_object href', h.keywords, h.properties,
      h.part "items" (by decide), h.part "not" (by decide), h.branches "allOf" (by decide),
      h.branches "oneOf" (by decide), h.branches "anyOf" (by decide)]

/-- Objects in which the same is found under every key say the same. -/
theorem saysAlike_of_lookup_eq {members members' : List (String × Json)}
    (h : ∀ key, members'.lookup key = members.lookup key) : SaysAlike members members' where
  ref := h "$ref"
  keywords := read_keywords_congr fun key _ ↦ h key
  properties location := by rw [propertiesReader, propertiesReader, h]
  part key _ location := by rw [partReader, partReader, h]
  branches key _ location := by rw [branchesReader, branchesReader, h]

theorem declaredTypes_of_spellsTypes {members : List (String × Json)} {declared : Json}
    {types : List String} (h : SpellsTypes declared types)
    (hlookup : members.lookup "type" = some declared) (location : String) :
    declaredTypes members location = .ok types := by
  rw [declaredTypes, hlookup]
  cases h with
  | single type => rfl
  | list types =>
    rw [textList]
    dsimp only
    rw [textItems_map_text]

/-- What is read of the keywords of an object that declares its types in a fit way. -/
theorem read_keywords_of_declaredTypes {members : List (String × Json)} {declared : List String}
    {location : String} (h : declaredTypes members location = .ok declared) :
    Keywords.read members location = (do
      let line ← Reader.next
      let required ← requiredNames members
      return {
        line
        ref := none
        types := withNull (nullableFlag members) declared
        nullable := nullableFlag members && (withNull (nullableFlag members) declared).isEmpty
        required
        format := meaningful members "format"
        title := meaningful members "title"
        description := meaningful members "description"
        const := members.lookup "const" }) := by
  rw [Keywords.read, h]
  rfl

/-- A nullable flag beside types that null is not among says the same as one more type. -/
theorem saysAlike_nullable {declared : Json} {types : List String} {rest : List (String × Json)}
    (hdeclared : SpellsTypes declared types) (hne : types ≠ []) (hnull : "null" ∉ types)
    (hrest : "nullable" ∉ Entries.names rest) :
    SaysAlike (("nullable", .bool true) :: ("type", declared) :: rest)
      (("type", textList (types ++ ["null"])) :: rest) := by
  have hlookup : ∀ key, key ≠ "nullable" → key ≠ "type" →
      (("type", textList (types ++ ["null"])) :: rest).lookup key =
        (("nullable", .bool true) :: ("type", declared) :: rest).lookup key := by
    intro key hnullable htype
    simp only [Entries.lookup_cons_eq_ite, if_neg hnullable, if_neg htype]
  refine ⟨hlookup _ (by decide) (by decide), fun location ↦ ?_, fun location ↦ ?_, ?_, ?_⟩
  · have htypes : declaredTypes (("nullable", .bool true) :: ("type", declared) :: rest) location =
        .ok types := declaredTypes_of_spellsTypes hdeclared rfl location
    have htypes' : declaredTypes (("type", textList (types ++ ["null"])) :: rest) location =
        .ok (types ++ ["null"]) := declaredTypes_of_spellsTypes (.list _) rfl location
    have hflag : nullableFlag (("nullable", .bool true) :: ("type", declared) :: rest) = true := rfl
    have hflag' : nullableFlag (("type", textList (types ++ ["null"])) :: rest) = false := by
      have hnone : rest.lookup "nullable" = none := by
        rwa [← Option.not_isSome_iff_eq_none, Entries.isSome_lookup_iff]
      rw [nullableFlag, Entries.lookup_cons_eq_ite, if_neg (by decide), hnone]
    have hwith : withNull true types = types ++ ["null"] := by
      simp [withNull, hne, hnull]
    have hempty : (types ++ ["null"]).isEmpty = false := by simp
    rw [read_keywords_of_declaredTypes htypes, read_keywords_of_declaredTypes htypes', hflag,
      hflag', hwith, hempty, requiredNames_congr (hlookup _ (by decide) (by decide)),
      meaningful_congr (hlookup "format" (by decide) (by decide)),
      meaningful_congr (hlookup "title" (by decide) (by decide)),
      meaningful_congr (hlookup "description" (by decide) (by decide)),
      hlookup "const" (by decide) (by decide)]
    rfl
  · rw [propertiesReader, propertiesReader, hlookup _ (by decide) (by decide)]
  · intro key hkey location
    rw [partReader, partReader, hlookup key (by revert key; decide) (by revert key; decide)]
  · intro key hkey location
    rw [branchesReader, branchesReader,
      hlookup key (by revert key; decide) (by revert key; decide)]

end Schema

/-! ## Documents -/

namespace Document

open Schema

/-- Reads the value under `schemas`. -/
def schemasReader : Option Json → Reader (List (String × Schema))
  | some (.object schemas) => readEach schemaReader schemas
  | _ => throw .noSchemas

/-- Reads the value under `responses`. -/
def responsesReader (found : Option Json) : Reader (List (String × Schema)) := do
  let responses := found.getD (.object [])
  let members ← ((if responses.isVoid then .object [] else responses).members "items").mapError
    LoadError.mismatch
  readEach responseReader members

theorem responsesReader_object (members : List (String × Json)) :
    responsesReader (some (.object members)) = readEach responseReader members := by
  cases members <;> rfl

/-- Reads the value under `components`. -/
def componentsReader : Option Json → Reader Document
  | some (.object components) => do
    let schemas ← schemasReader (components.lookup "schemas")
    return { schemas, responses := ← responsesReader (components.lookup "responses") }
  | _ => throw .noSchemas

/-- A document is read from what is found under its keys. -/
theorem reader_object (members : List (String × Json)) :
    reader (.object members) = componentsReader (members.lookup "components") := by
  have hcatalogues : catalogues (.object members) = (match members.lookup "components" with
      | some (.object components) =>
        match components.lookup "schemas" with
        | some (.object schemas) =>
          .ok (schemas,
            if ((components.lookup "responses").getD (.object [])).isVoid then .object []
            else (components.lookup "responses").getD (.object []))
        | _ => .error .noSchemas
      | _ => .error .noSchemas) := rfl
  rw [reader, hcatalogues, componentsReader.eq_def]
  simp only [readSchemas_eq_readEach, readResponses_eq_readEach]
  cases members.lookup "components" with
  | none => rfl
  | some found =>
    cases found with
    | object components =>
      dsimp only
      cases components.lookup "schemas" with
      | none => rfl
      | some found =>
        cases found with
        | object schemas =>
          simp only [responsesReader, schemasReader, bind_assoc]
          rfl
        | _ => rfl
    | _ => rfl

/-- Reads the schema of a body that keys lead to. -/
def bodyReader (keys : List String) (value : Json) (location : String) : Reader Schema := do
  let body ← (keys.foldlM memberOf value).mapError LoadError.mismatch
  Schema.read body location

theorem responseReader_eq_bodyReader (name : String) (response : Json) :
    responseReader name response =
      bodyReader ["content", "application/json", "schema"] response
        (responsesNamespace ++ "/" ++ name) := by
  rw [responseReader, bodyReader, responseSchema]
  simp only [List.foldlM_cons, List.foldlM_nil, bind_pure]

theorem bodyReader_nil (value : Json) (location : String) :
    bodyReader [] value location = Schema.read value location := rfl

/-- Behind its first key, a body is read from what is found under that key. -/
theorem bodyReader_object (key : String) (keys : List String) (members : List (String × Json))
    (location : String) :
    bodyReader (key :: keys) (.object members) location =
      (match members.lookup key with
        | some value => bodyReader keys (if value.isVoid then .object [] else value) location
        | none => bodyReader keys (.object []) location) := by
  have hmember : memberOf (.object members) key = (match members.lookup key with
      | some member => .ok (if member.isVoid then .object [] else member)
      | none => .ok (.object [])) := rfl
  rw [bodyReader, List.foldlM_cons, hmember]
  cases members.lookup key with
  | none => rfl
  | some value => rfl

variable {key : String} {value value' : Json} {before after : List (String × Json)}

/-- Entries are read alike in turn if the one that differs is read alike. -/
theorem readEach_replaced {f : String → Json → Reader Schema} (h : f key value' = f key value) :
    readEach f (before ++ (key, value') :: after) =
      readEach f (before ++ (key, value) :: after) := by
  induction before with
  | nil => rw [List.nil_append, List.nil_append, readEach, readEach, h]
  | cons e before ih => rw [List.cons_append, List.cons_append, readEach, readEach, ih]

theorem readBranches_replaced {before after : List Json}
    (h : ∀ location, Schema.read value' location = Schema.read value location) (location : String)
    (index : Nat) :
    readBranches (before ++ value' :: after) location index =
      readBranches (before ++ value :: after) location index := by
  induction before generalizing index with
  | nil => rw [List.nil_append, List.nil_append, readBranches, readBranches, h]
  | cons v before ih => rw [List.cons_append, List.cons_append, readBranches, readBranches, ih]

/-- Two values are void alike, and what keys lead to is read of both alike. -/
def BodiesAlike (keys : List String) (value value' : Json) : Prop :=
  value'.isVoid = value.isVoid ∧
    ∀ location, bodyReader keys value' location = bodyReader keys value location

theorem isVoid_object_append_cons (key : String) (value : Json)
    (before after : List (String × Json)) :
    (Json.object (before ++ (key, value) :: after)).isVoid = false := by
  cases before <;> rfl

/-- Objects lead to bodies alike if the member does that differs, in case it is looked at. -/
theorem bodiesAlike_member {first : String} {keys : List String}
    (h : first = key → BodiesAlike keys value value') :
    BodiesAlike (first :: keys) (.object (before ++ (key, value) :: after))
      (.object (before ++ (key, value') :: after)) := by
  refine ⟨?_, fun location ↦ ?_⟩
  · rw [isVoid_object_append_cons, isVoid_object_append_cons]
  rw [bodyReader_object, bodyReader_object]
  rcases Entries.lookup_replaced key first value value' before after with
    hsame | ⟨hfirst, hfound, hfound'⟩
  · rw [hsame]
  · obtain ⟨hvoid, hbody⟩ := h hfirst
    rw [hfound, hfound']
    dsimp only
    rw [hvoid]
    split
    · rfl
    · exact hbody location

end Document

namespace Site

open Schema Document

/-- The same is read of two values that stand at a place. -/
def ReadsAlike : Site → Json → Json → Prop
  | document, value, value' => reader value' = reader value
  | components, value, value' => componentsReader (some value') = componentsReader (some value)
  | schemas, value, value' => schemasReader (some value') = schemasReader (some value)
  | responses, value, value' => responsesReader (some value') = responsesReader (some value)
  | response, value, value' => BodiesAlike ["content", "application/json", "schema"] value value'
  | content, value, value' => BodiesAlike ["application/json", "schema"] value value'
  | media, value, value' => BodiesAlike ["schema"] value value'
  | schema, value, value' => BodiesAlike [] value value'
  | properties, value, value' => ∀ location,
    propertiesReader [("properties", value')] location =
      propertiesReader [("properties", value)] location
  | branches, value, value' => ∀ key location,
    branchesReader [(key, value')] key location = branchesReader [(key, value)] key location
  -- Nothing is spelled anew in a value that is taken as it is.
  | plain, _, _ => False
  | unread, _, _ => True

variable {key : String} {value value' : Json} {before after : List (String × Json)}

/-- Schema objects say the same if the member does that differs. -/
theorem saysAlike_member (h : (schema.below key).ReadsAlike value value') :
    SaysAlike (before ++ (key, value) :: after) (before ++ (key, value') :: after) := by
  have hlookup := fun other ↦ Entries.lookup_replaced key other value value' before after
  have hplain : ∀ other ∈ plainKeys, (before ++ (key, value') :: after).lookup other =
      (before ++ (key, value) :: after).lookup other := by
    intro other hother
    rcases hlookup other with hsame | ⟨rfl, -⟩
    · exact hsame
    · -- Under such a key nothing can have changed.
      rw [below_schema_of_mem_plainKeys other hother] at h
      exact h.elim
  refine ⟨hplain _ (by decide), read_keywords_congr hplain, fun location ↦ ?_, ?_, ?_⟩
  · rcases hlookup "properties" with hsame | ⟨rfl, hfound, hfound'⟩
    · rw [propertiesReader, propertiesReader, hsame]
    · have hread := h location
      rw [propertiesReader, propertiesReader, hfound, hfound']
      exact hread
  · intro other hother location
    rcases hlookup other with hsame | ⟨rfl, hfound, hfound'⟩
    · rw [partReader, partReader, hsame]
    · rw [below_schema_of_mem_partKeys other hother] at h
      have hread := h.2 location
      rw [bodyReader_nil, bodyReader_nil] at hread
      rw [partReader, partReader, hfound, hfound']
      dsimp only
      rw [hread]
  · intro other hother location
    rcases hlookup other with hsame | ⟨rfl, hfound, hfound'⟩
    · rw [branchesReader, branchesReader, hsame]
    · rw [below_schema_of_mem_branchKeys other hother] at h
      have hread := h other location
      simp only [branchesReader, List.lookup_cons_self] at hread
      rw [branchesReader, branchesReader, hfound, hfound']
      exact hread

/-- The same is read of two objects at a place if the same is read of the member that differs. -/
theorem readsAlike_member {site : Site} (h : (site.below key).ReadsAlike value value') :
    site.ReadsAlike (.object (before ++ (key, value) :: after))
      (.object (before ++ (key, value') :: after)) := by
  have hlookup := fun other ↦ Entries.lookup_replaced key other value value' before after
  cases site with
  | document =>
    rw [ReadsAlike, reader_object, reader_object]
    rcases hlookup "components" with hsame | ⟨rfl, hfound, hfound'⟩
    · rw [hsame]
    · rw [hfound, hfound']
      exact h
  | components =>
    have hschemas : schemasReader ((before ++ (key, value') :: after).lookup "schemas") =
        schemasReader ((before ++ (key, value) :: after).lookup "schemas") := by
      rcases hlookup "schemas" with hsame | ⟨rfl, hfound, hfound'⟩
      · rw [hsame]
      · rw [hfound, hfound']
        exact h
    have hresponses : responsesReader ((before ++ (key, value') :: after).lookup "responses") =
        responsesReader ((before ++ (key, value) :: after).lookup "responses") := by
      rcases hlookup "responses" with hsame | ⟨rfl, hfound, hfound'⟩
      · rw [hsame]
      · rw [hfound, hfound']
        exact h
    rw [ReadsAlike, componentsReader, componentsReader, hschemas, hresponses]
  | schemas => exact readEach_replaced (h.2 _)
  | responses =>
    have hread : readEach responseReader (before ++ (key, value') :: after) =
        readEach responseReader (before ++ (key, value) :: after) := by
      refine readEach_replaced ?_
      rw [responseReader_eq_bodyReader, responseReader_eq_bodyReader]
      exact h.2 _
    rwa [ReadsAlike, responsesReader_object, responsesReader_object]
  | response =>
    refine bodiesAlike_member fun hkey ↦ ?_
    subst hkey
    exact h
  | content =>
    refine bodiesAlike_member fun hkey ↦ ?_
    subst hkey
    exact h
  | media =>
    refine bodiesAlike_member fun hkey ↦ ?_
    subst hkey
    exact h
  | schema =>
    refine ⟨?_, (saysAlike_member h).read_eq⟩
    rw [isVoid_object_append_cons, isVoid_object_append_cons]
  | properties =>
    intro location
    simp only [propertiesReader, List.lookup_cons_self]
    rw [readProperties_eq_readEach, readProperties_eq_readEach]
    exact readEach_replaced (h.2 _)
  | branches => exact h.elim
  | plain => exact h.elim
  | unread => trivial

end Site

/-- **What is spelled anew reads as before**, at every place of a document. -/
theorem Respelled.readsAlike {site : Site} {value value' : Json}
    (h : Respelled site value value') : site.ReadsAlike value value' := by
  induction h with
  | @reordered members members' hnodup hperm =>
    refine ⟨?_, fun location ↦ ?_⟩
    · rw [Bool.eq_iff_iff, Json.isVoid, Json.isVoid, List.isEmpty_iff, List.isEmpty_iff]
      exact ⟨fun hnil ↦ (hnil ▸ hperm).symm.eq_nil, fun hnil ↦ (hnil ▸ hperm).eq_nil⟩
    · refine (Schema.saysAlike_of_lookup_eq fun key ↦ ?_).read_eq location
      exact (Entries.lookup_eq_of_perm hperm.symm hnodup key).symm
  | nullable hdeclared hne hnull hrest =>
    exact ⟨rfl, (Schema.saysAlike_nullable hdeclared hne hnull hrest).read_eq⟩
  | unread => trivial
  | member before after _ ih => exact Site.readsAlike_member ih
  | branch before after _ ih =>
    intro key location
    simp only [Schema.branchesReader, List.lookup_cons_self]
    exact Document.readBranches_replaced ih.2 location 0

/-- **All spellings of a document are loaded as the same document**, to the number of every node, or
fail for the same reason. -/
theorem Document.load_eq_of_respelled {value value' : Json}
    (h : Relation.ReflTransGen (Respelled .document) value value') : load value' = load value := by
  induction h with
  | refl => rfl
  | tail _ hlast ih =>
    have hreader : reader _ = reader _ := hlast.readsAlike
    rw [← ih, load, load, hreader]

namespace Document

/-- A document with a schema and a response. -/
def guildDocument (guild page : Json) : Json :=
  .object [("components", .object [
    ("schemas", .object [("Guild", guild)]),
    ("responses", .object [("Page", .object [("content", .object [
      ("application/json", .object [("schema", page)])])])])])]

theorem respelled_guild {guild guild' : Json} (h : Respelled .schema guild guild') (page : Json) :
    Respelled .document (guildDocument guild page) (guildDocument guild' page) :=
  .member [] [] (.member [] [_] (.member [] [] h))

theorem respelled_page {page page' : Json} (h : Respelled .schema page page') (guild : Json) :
    Respelled .document (guildDocument guild page) (guildDocument guild page') :=
  .member [] [] (.member [_] [] (.member [] [] (.member [] [] (.member [] [] (.member [] [] h)))))

/-- An object with a name and an owner. -/
def guildSchema (name : Json) : Json :=
  .object [("type", .text "object"),
    ("properties", .object [
      ("name", name), ("owner", .object [("$ref", .text "#/components/schemas/User")])])]

theorem respelled_name {name name' : Json} (h : Respelled .schema name name') :
    Respelled .schema (guildSchema name) (guildSchema name') :=
  .member [_] [] (.member [] [_] h)

/-- An object whose name may be null by a flag, and a list that may be null by a flag. -/
def flaggedDocument : Json :=
  guildDocument
    (guildSchema (.object [("nullable", .bool true), ("type", .text "string")]))
    (.object [("nullable", .bool true), ("type", .list [.text "array"]), ("items", .object [])])

/-- The same with null among the types, and with the keywords of the object in another order. -/
def listedDocument : Json :=
  guildDocument
    (.object [
      ("properties", .object [
        ("name", .object [("type", .list [.text "string", .text "null"])]),
        ("owner", .object [("$ref", .text "#/components/schemas/User")])]),
      ("type", .text "object")])
    (.object [("type", .list [.text "array", .text "null"]), ("items", .object [])])

/-- What both are loaded as. -/
def loadedDocument : Document where
  schemas := [("Guild", .node { Schema.Keywords.blank 1 with types := ["object"] }
    [("name", .leaf { Schema.Keywords.blank 2 with types := ["string", "null"] }),
     ("owner", .reference (.text "#/components/schemas/User") 3)] none [] [] [] none)]
  responses := [("Page", .node { Schema.Keywords.blank 4 with types := ["array", "null"] }
    [] (some (.leaf (.blank 5))) [] [] [] none)]

theorem load_eq_of_respelled_listed :
    Relation.ReflTransGen (Respelled .document) flaggedDocument listedDocument ∧
      load flaggedDocument = .ok loadedDocument ∧ load listedDocument = .ok loadedDocument := by
  have hname : Respelled .schema (.object [("nullable", .bool true), ("type", .text "string")])
      (.object [("type", .list [.text "string", .text "null"])]) :=
    .nullable (.single "string") (by decide) (by decide) (by decide)
  have hpage : Respelled .schema
      (.object [("nullable", .bool true), ("type", .list [.text "array"]), ("items", .object [])])
      (.object [("type", .list [.text "array", .text "null"]), ("items", .object [])]) :=
    .nullable (.list ["array"]) (by decide) (by decide) (by decide)
  have hspelled : Relation.ReflTransGen (Respelled .document) flaggedDocument listedDocument := by
    refine .head (respelled_guild (respelled_name hname) _) (.head (respelled_page hpage _) ?_)
    exact .single (respelled_guild (.reordered (by decide) (.swap _ _ _)) _)
  have hload : load flaggedDocument = .ok loadedDocument := by cbv
  exact ⟨hspelled, hload, (load_eq_of_respelled hspelled).trans hload⟩

end Document

end SchemaTypes
