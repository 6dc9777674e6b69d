import SchemaTypes.Proofs.Schema.Catalogue
import SchemaTypes.Proofs.Schema.Textual

/-!
# Well-typed documents

A document is well-typed when its values have the types that they are meant to have: at the position
of a schema there is a truth value or an object, and its keywords hold texts, lists and objects
where they should. What references name is not looked at, so they may lead nowhere or come back to
themselves, and constants are any values at all.

A well-typed document can be read, and what is read of it is textual (`Document.exists_load_eq_ok`).
-/

namespace SchemaTypes

open Json

namespace Schema

/-- Members of a schema object whose values have the types that their keywords ask for. -/
structure TypedKeywords (members : List (String × Json)) : Prop where
  type : Under "type" (fun value ↦ value.IsText ∨ value.IsList IsText) members
  text : ∀ key ∈ ["$ref", "format", "title", "description"], Under key IsText members
  required : Under "required" (IsList IsText) members
  properties : Under "properties" (IsObject fun _ ↦ True) members
  branches : ∀ key ∈ ["allOf", "oneOf", "anyOf"], Under key (IsList fun _ ↦ True) members

/-- The positions of schemas within a value, its own one included. -/
inductive Position (position : Json) : Json → Prop
  | self : Position position position
  | step {members : List (String × Json)} {sub : Json} :
      Subvalue members sub → Position position sub → Position position (.object members)

/-- At each position of a schema there is a truth value, or an object whose keywords are typed. -/
def WellTyped (value : Json) : Prop :=
  ∀ position, Position position value →
    (∃ b, position = .bool b) ∨ position.IsObject TypedKeywords

namespace WellTyped

variable {members : List (String × Json)}

theorem bool (b : Bool) : WellTyped (.bool b) := by
  rintro position ⟨⟩
  exact .inl ⟨b, rfl⟩

/-- An object is well-typed when its keywords are and what stands below each of them is. -/
theorem object (hkeywords : TypedKeywords members)
    (hproperties : Under "properties"
      (fun value ↦ ∀ named, value = .object named → ∀ m ∈ named, WellTyped m.2) members)
    (hparts : ∀ key ∈ ["items", "not"], Under key WellTyped members)
    (hbranches : ∀ key ∈ ["allOf", "oneOf", "anyOf"],
      Under key (fun value ↦ ∀ items, value = .list items → ∀ i ∈ items, WellTyped i) members) :
    WellTyped (.object members) := by
  intro position h
  cases h with
  | self => exact .inr ⟨members, rfl, hkeywords⟩
  | step hsub h =>
    cases hsub with
    | property hfound hmem => exact hproperties _ hfound _ rfl _ hmem position h
    | part hkey hfound => exact hparts _ hkey _ hfound position h
    | branch hkey hfound hmem => exact hbranches _ hkey _ hfound _ rfl _ hmem position h

/-- An object that says nothing. -/
theorem empty : WellTyped (.object []) :=
  .object (by constructor <;> simp) (by simp) (by simp) (by simp)

/-- A reference, whatever it names. -/
theorem reference (ref : String) : WellTyped (.object [("$ref", .text ref)]) :=
  .object (by constructor <;> simp) (by simp) (by simp) (by simp)

theorem keywords (h : WellTyped (.object members)) : TypedKeywords members := by
  obtain ⟨b, hb⟩ | ⟨_, hmembers, hkeywords⟩ := h _ .self
  · cases hb
  · cases hmembers
    exact hkeywords

theorem of_subvalue (h : WellTyped (.object members)) {sub : Json} (hsub : Subvalue members sub) :
    WellTyped sub :=
  fun position hposition ↦ h position (.step hsub hposition)

end WellTyped

/-! ## Readers that get a value -/

namespace Reader

variable {α β : Type} {P : α → Prop} {Q : β → Prop} {x : Reader α} {f : α → Reader β}

/-- Wherever it begins, a reader gets a value of which something holds. -/
def Gets (P : α → Prop) (x : Reader α) : Prop := ∀ n, ∃ a next, x n = .ok (a, next) ∧ P a

theorem gets_pure {a : α} (h : P a) : Gets P (pure a) := fun n ↦ ⟨a, n, rfl, h⟩

theorem gets_liftM {value : Except LoadError α} {a : α} (hvalue : value = .ok a) (h : P a) :
    Gets P (liftM value) := by
  rw [hvalue]
  exact fun n ↦ ⟨a, n, rfl, h⟩

theorem Gets.bind (hx : Gets P x) (hf : ∀ a, P a → Gets Q (f a)) : Gets Q (x >>= f) := by
  intro n
  obtain ⟨a, m, ha, hP⟩ := hx n
  obtain ⟨b, next, hb, hQ⟩ := hf a hP m
  exact ⟨b, next, by rw [bind_of_ok ha, hb], hQ⟩

end Reader

open Reader

/-! ## Keywords -/

theorem exists_textItems_eq_some {items : List Json} (h : ∀ i ∈ items, i.IsText) :
    ∃ texts, textItems items = some texts := by
  induction items with
  | nil => exact ⟨[], rfl⟩
  | cons item rest ih =>
    obtain ⟨⟨text, rfl⟩, hrest⟩ := List.forall_mem_cons.mp h
    obtain ⟨texts, htexts⟩ := ih hrest
    exact ⟨text :: texts, by rw [textItems, htexts]; rfl⟩

variable {members : List (String × Json)}

theorem TypedKeywords.exists_declaredTypes_eq_ok (h : TypedKeywords members) (location : String) :
    ∃ types, declaredTypes members location = .ok types := by
  rw [declaredTypes]
  cases htype : members.lookup "type" with
  | none => exact ⟨[], rfl⟩
  | some value =>
    rcases h.type value htype with ⟨text, rfl⟩ | ⟨items, rfl, hitems⟩
    · exact ⟨[text], rfl⟩
    · obtain ⟨texts, htexts⟩ := exists_textItems_eq_some hitems
      exact ⟨texts, by dsimp only; rw [htexts]⟩

theorem TypedKeywords.exists_requiredNames_eq_ok (h : TypedKeywords members) :
    ∃ names, requiredNames members = .ok names := by
  rw [requiredNames]
  cases hrequired : members.lookup "required" with
  | none => exact ⟨[], rfl⟩
  | some value =>
    obtain ⟨items, rfl, -⟩ := h.required value hrequired
    dsimp only
    split <;> exact ⟨_, rfl⟩

/-- What is kept of a text is a text. -/
theorem isText_meaningful {key : String} (h : Under key IsText members) :
    (meaningful members key).IsText := by
  rw [meaningful]
  cases hkey : members.lookup key with
  | none => exact ⟨"", rfl⟩
  | some value =>
    dsimp only
    split
    · exact ⟨"", rfl⟩
    · exact h value hkey

theorem textual_blank (line : Nat) : (Keywords.blank line).Textual where
  ref _ href := absurd href nofun
  format := ⟨"", rfl⟩
  title := ⟨"", rfl⟩
  description := ⟨"", rfl⟩

theorem textual_leaf {keywords : Keywords} (h : keywords.Textual) : (leaf keywords).Textual :=
  .of_children h (List.forall_mem_nil _)

theorem gets_readKeywords (h : TypedKeywords members) (location : String) :
    (Keywords.read members location).Gets Keywords.Textual := by
  have hnext : Gets (fun _ ↦ True) Reader.next := fun n ↦ ⟨n, n + 1, rfl, trivial⟩
  obtain ⟨declared, hdeclared⟩ := h.exists_declaredTypes_eq_ok location
  obtain ⟨required, hrequired⟩ := h.exists_requiredNames_eq_ok
  refine hnext.bind fun line _ ↦ ?_
  refine (gets_liftM (P := fun _ ↦ True) hdeclared trivial).bind fun types _ ↦ ?_
  refine (gets_liftM (P := fun _ ↦ True) hrequired trivial).bind fun names _ ↦ gets_pure ?_
  exact {
    ref := fun _ href ↦ absurd href nofun
    format := isText_meaningful (h.text "format" (by simp))
    title := isText_meaningful (h.text "title" (by simp))
    description := isText_meaningful (h.text "description" (by simp)) }

/-! ## Schemas -/

theorem gets_readProperties {named : List (String × Json)}
    (h : ∀ m ∈ named, ∀ location, (read m.2 location).Gets Schema.Textual) (location : String) :
    (readProperties named location).Gets fun properties ↦ ∀ p ∈ properties, p.2.Textual := by
  induction named with
  | nil =>
    rw [readProperties]
    exact gets_pure (List.forall_mem_nil _)
  | cons m rest ih =>
    rw [readProperties]
    obtain ⟨hfirst, hrest⟩ := List.forall_mem_cons.mp h
    refine (hfirst _).bind fun s hs ↦ (ih hrest).bind fun more hmore ↦ gets_pure ?_
    exact List.forall_mem_cons.mpr ⟨hs, hmore⟩

theorem gets_readBranches {values : List Json}
    (h : ∀ v ∈ values, ∀ location, (read v location).Gets Schema.Textual) (location : String)
    (index : Nat) : (readBranches values location index).Gets fun ss ↦ ∀ s ∈ ss, s.Textual := by
  induction values generalizing index with
  | nil =>
    rw [readBranches]
    exact gets_pure (List.forall_mem_nil _)
  | cons v rest ih =>
    rw [readBranches]
    obtain ⟨hfirst, hrest⟩ := List.forall_mem_cons.mp h
    refine (hfirst _).bind fun s hs ↦ (ih hrest (index + 1)).bind fun more hmore ↦ gets_pure ?_
    exact List.forall_mem_cons.mpr ⟨hs, hmore⟩

section Parts

variable (h : ∀ sub, Subvalue members sub → ∀ location, (read sub location).Gets Schema.Textual)

include h

theorem gets_propertiesReader (hkeywords : TypedKeywords members) (location : String) :
    (propertiesReader members location).Gets fun properties ↦ ∀ p ∈ properties, p.2.Textual := by
  rw [propertiesReader]
  cases hproperties : members.lookup "properties" with
  | none => exact gets_pure (List.forall_mem_nil _)
  | some value =>
    obtain ⟨named, rfl, -⟩ := hkeywords.properties value hproperties
    exact gets_readProperties (fun m hm ↦ h m.2 (.property hproperties hm)) location

theorem gets_partReader {key : String} (hkey : key ∈ ["items", "not"]) (location : String) :
    (partReader members key location).Gets fun part ↦ ∀ s, part = some s → s.Textual := by
  rw [partReader]
  cases hpart : members.lookup key with
  | none => exact gets_pure fun s hs ↦ by cases hs
  | some value =>
    dsimp only
    rw [map_eq_pure_bind]
    refine (h value (.part hkey hpart) location).bind fun s hs ↦ gets_pure fun t ht ↦ ?_
    exact Option.some.inj ht ▸ hs

theorem gets_branchesReader (hkeywords : TypedKeywords members) {key : String}
    (hkey : key ∈ ["allOf", "oneOf", "anyOf"]) (location : String) :
    (branchesReader members key location).Gets fun ss ↦ ∀ s ∈ ss, s.Textual := by
  rw [branchesReader]
  cases hbranches : members.lookup key with
  | none => exact gets_pure (List.forall_mem_nil _)
  | some value =>
    obtain ⟨items, rfl, -⟩ := hkeywords.branches key hkey value hbranches
    exact gets_readBranches (fun v hv ↦ h v (.branch hkey hbranches hv)) location 0

end Parts

/-- **A well-typed schema can be read**, and it is textual. The induction is on the positions below
the value: each keyword finds what it asks for, and what is below it is textual by induction. -/
theorem gets_read {value : Json} (h : WellTyped value) (location : String) :
    (read value location).Gets Schema.Textual := by
  have hnext : Gets (fun _ ↦ True) Reader.next := fun n ↦ ⟨n, n + 1, rfl, trivial⟩
  induction value using schema_induction generalizing location with
  | step value ih =>
    obtain ⟨b, rfl⟩ | ⟨members, rfl, hkeywords⟩ := h _ .self
    · rw [read]
      exact hnext.bind fun line _ ↦ gets_pure (textual_leaf (textual_blank line))
    -- Beside a reference nothing else is read, whatever it is.
    cases href : members.lookup "$ref" with
    | some ref =>
      obtain ⟨text, rfl⟩ := hkeywords.text "$ref" (by simp) ref href
      rw [read_object_of_ref href]
      refine fun n ↦ ⟨_, n + 1, rfl, textual_leaf { textual_blank n with ref := ?_ }⟩
      exact fun ref href ↦ ⟨text, (Option.some.inj href).symm⟩
    | none =>
      have hsub : ∀ sub, Subvalue members sub → ∀ location,
          (read sub location).Gets Schema.Textual :=
        fun sub hsub location ↦ ih members rfl sub hsub (h.of_subvalue hsub) location
      rw [read_object href]
      refine (gets_readKeywords hkeywords _).bind fun keywords hk ↦ ?_
      refine (gets_propertiesReader hsub hkeywords _).bind fun properties hproperties ↦ ?_
      refine (gets_partReader hsub (by simp) _).bind fun items hitems ↦ ?_
      refine (gets_branchesReader hsub hkeywords (by simp) _).bind fun allOf hallOf ↦ ?_
      refine (gets_branchesReader hsub hkeywords (by simp) _).bind fun oneOf honeOf ↦ ?_
      refine (gets_branchesReader hsub hkeywords (by simp) _).bind fun anyOf hanyOf ↦ ?_
      refine (gets_partReader hsub (by simp) _).bind fun negated hnegated ↦ gets_pure ?_
      refine .of_children hk fun child hchild ↦ ?_
      rcases mem_children_iff.mp hchild with ⟨name, hmem⟩ | hmem | hmem | hmem | hmem | hmem
      · exact hproperties _ hmem
      · exact hitems child hmem
      · exact hallOf child hmem
      · exact honeOf child hmem
      · exact hanyOf child hmem
      · exact hnegated child hmem

end Schema

/-! ## Documents -/

namespace Document

open Schema Schema.Reader

/-- A response that has the schema of a body of JSON at the place for it, if it has one. -/
def IsResponse : Json → Prop :=
  IsObject (Under "content" (IsObject (Under "application/json" (IsObject (Under "schema"
    Schema.WellTyped)))))

/-- A document with a catalogue of schemas, and perhaps one of responses, all of them well-typed. -/
def WellTyped : Json → Prop :=
  IsObject fun members ↦ ∃ components schemas,
    members.lookup "components" = some (.object components) ∧
    components.lookup "schemas" = some (.object schemas) ∧
    (∀ entry ∈ schemas, Schema.WellTyped entry.2) ∧
    Under "responses" (IsObject fun responses ↦ ∀ entry ∈ responses, IsResponse entry.2) components

/-- A member that may be missing is asked for, with an empty object in its place. -/
theorem exists_memberOf_eq_ok {value : Json} {key : String} {P : Json → Prop}
    (h : value.IsObject (Under key P)) (hempty : P (.object [])) :
    ∃ member, memberOf value key = .ok member ∧ P member := by
  obtain ⟨members, rfl, hmember⟩ := h
  cases hlookup : members.lookup key with
  | none =>
    refine ⟨.object [], ?_, hempty⟩
    simp only [memberOf, Json.members, bind, Except.bind, hlookup]
    rfl
  | some member =>
    refine ⟨if member.isVoid then .object [] else member, ?_, ?_⟩
    · simp only [memberOf, Json.members, bind, Except.bind, hlookup]
      rfl
    · split
      · exact hempty
      · exact hmember member hlookup

theorem exists_responseSchema_eq_ok {response : Json} (h : IsResponse response) :
    ∃ body, responseSchema response = .ok body ∧ Schema.WellTyped body := by
  have hnothing : ∀ {key : String} {P : Json → Prop}, (Json.object []).IsObject (Under key P) :=
    ⟨[], rfl, under_nil _ _⟩
  obtain ⟨content, hcontent, htyped⟩ := exists_memberOf_eq_ok h hnothing
  obtain ⟨media, hmedia, htyped⟩ := exists_memberOf_eq_ok htyped hnothing
  obtain ⟨body, hbody, htyped⟩ := exists_memberOf_eq_ok htyped .empty
  refine ⟨body, ?_, htyped⟩
  rw [responseSchema, hcontent]
  dsimp only [bind, Except.bind]
  rw [hmedia]
  exact hbody

theorem gets_responseReader (name : String) {response : Json} (h : IsResponse response) :
    (responseReader name response).Gets Schema.Textual := by
  obtain ⟨body, hbody, htyped⟩ := exists_responseSchema_eq_ok h
  have hvalue : (responseSchema response).mapError LoadError.mismatch = .ok body := by
    rw [hbody]
    rfl
  exact (gets_liftM hvalue htyped).bind fun body htyped ↦ gets_read htyped _

theorem gets_readEach {f : String → Json → Reader Schema} {entries : List (String × Json)}
    (h : ∀ entry ∈ entries, (f entry.1 entry.2).Gets Schema.Textual) :
    (readEach f entries).Gets fun schemas ↦ ∀ p ∈ schemas, p.2.Textual := by
  induction entries with
  | nil => exact gets_pure (List.forall_mem_nil _)
  | cons entry rest ih =>
    obtain ⟨hfirst, hrest⟩ := List.forall_mem_cons.mp h
    refine hfirst.bind fun s hs ↦ (ih hrest).bind fun more hmore ↦ gets_pure ?_
    exact List.forall_mem_cons.mpr ⟨hs, hmore⟩

/-- The catalogues of a well-typed document. -/
theorem WellTyped.catalogues {value : Json} (h : WellTyped value) :
    ∃ schemas responses, catalogues value = .ok (schemas, .object responses) ∧
      (∀ entry ∈ schemas, Schema.WellTyped entry.2) ∧ ∀ entry ∈ responses, IsResponse entry.2 := by
  obtain ⟨members, rfl, components, schemas, hcomponents, hschemas, htyped, hresponses⟩ := h
  have hcatalogues : Document.catalogues (.object members) = .ok (schemas,
      if ((components.lookup "responses").getD (.object [])).isVoid then .object []
      else (components.lookup "responses").getD (.object [])) := by
    simp only [Document.catalogues, Json.members, Except.mapError, bind, Except.bind, hcomponents,
      hschemas]
    rfl
  rw [hcatalogues]
  cases hfound : components.lookup "responses" with
  | none => exact ⟨schemas, [], rfl, htyped, List.forall_mem_nil _⟩
  | some found =>
    obtain ⟨responses, rfl, hbodies⟩ := hresponses found hfound
    cases responses with
    | nil => exact ⟨schemas, [], rfl, htyped, List.forall_mem_nil _⟩
    | cons entry rest => exact ⟨schemas, entry :: rest, rfl, htyped, hbodies⟩

/-- **A well-typed document can be loaded**, and it is textual. -/
theorem exists_load_eq_ok {value : Json} (h : WellTyped value) :
    ∃ d, load value = .ok d ∧ d.Textual := by
  obtain ⟨schemas, responses, hcatalogues, htyped, hbodies⟩ := h.catalogues
  obtain ⟨ss, m, hss, hschemas⟩ := gets_readEach (f := schemaReader)
    (fun entry hentry ↦ gets_read (htyped entry hentry) _) 1
  obtain ⟨rs, next, hrs, hresponses⟩ := gets_readEach
    (fun entry hentry ↦ gets_responseReader entry.1 (hbodies entry hentry)) m
  refine ⟨⟨ss, rs⟩, (load_eq_ok_iff hcatalogues).mpr ⟨m, next, hss, hrs⟩, fun e he ↦ ?_⟩
  rcases List.mem_append.mp he with hmem | hmem
  · obtain ⟨p, hp, rfl⟩ := List.mem_map.mp hmem
    exact hschemas p hp
  · obtain ⟨p, hp, rfl⟩ := List.mem_map.mp hmem
    exact hresponses p hp

end Document

end SchemaTypes
