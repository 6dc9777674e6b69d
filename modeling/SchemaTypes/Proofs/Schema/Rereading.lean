import Mathlib
import SchemaTypes.Proofs.Schema.Reading

/-!
# Reading what has been written

A schema that has been read is written back without positions (`toJson`), and only what says
something is written. Nothing else is lost: what is written is read as the same tree, and its nodes
are numbered as before, but for where numbering begins (`read_toJson_of_read`).

This takes two facts about what is read. Its nodes are numbered without a gap in the order in which
they stand in the tree (`lines_read`), so that the numbers of a tree follow from the first one. And
every node is in a normal form (`Normal`), in which a keyword that says nothing has one value only.
Both are read off the ways in which a schema can be read (`read_cases`).
-/

namespace SchemaTypes

/-! ## Entries that are present -/

namespace Entries

variable {α : Type}

/-- The entries that have a value. -/
def present (entries : List (String × Option α)) : List (String × α) :=
  entries.flatMap fun (name, value) ↦ (value.map (name, ·)).toList

theorem names_present_sublist (entries : List (String × Option α)) :
    (names (present entries)).Sublist (names entries) := by
  induction entries with
  | nil => exact .slnil
  | cons e rest ih =>
    obtain ⟨name, _ | value⟩ := e
    · exact ih.cons name
    · exact ih.cons_cons name

theorem lookup_present_eq_none {name : String} {entries : List (String × Option α)}
    (h : name ∉ names entries) : (present entries).lookup name = none := by
  rw [← Option.not_isSome_iff_eq_none, isSome_lookup_iff]
  exact fun hname ↦ h ((names_present_sublist entries).subset hname)

theorem lookup_present_cons {name : String} {value : Option α} {rest : List (String × Option α)}
    (h : name ∉ names rest) (key : String) :
    (present ((name, value) :: rest)).lookup key =
      if key = name then value else (present rest).lookup key := by
  cases value with
  | some v => exact lookup_cons_eq_ite key name v (present rest)
  | none =>
    change (present rest).lookup key = _
    split
    · next heq => rw [heq, lookup_present_eq_none h]
    · rfl

/-- Where names are distinct, the value of a name is found under it, if there is one. -/
theorem lookup_present_of_mem {entries : List (String × Option α)} (h : (names entries).Nodup)
    {name : String} {value : Option α} (hmem : (name, value) ∈ entries) :
    (present entries).lookup name = value := by
  induction entries with
  | nil => cases hmem
  | cons e rest ih =>
    obtain ⟨first, found⟩ := e
    obtain ⟨hfirst, hrest⟩ := List.nodup_cons.mp h
    rw [lookup_present_cons hfirst]
    rcases List.mem_cons.mp hmem with heq | hmem
    · cases heq
      exact if_pos rfl
    · have hname : name ∈ names rest := List.mem_map_of_mem (f := Prod.fst) hmem
      have hne : name ≠ first := by
        rintro rfl
        exact hfirst hname
      rw [if_neg hne, ih hrest hmem]

end Entries

namespace Schema

open Reader

/-! ## The ways to read a schema -/

/-- Schemas are read one behind the other, the first one at a given position and the last one up to
another. -/
inductive InTurn (R : Nat → Schema → Nat → Prop) : Nat → List Schema → Nat → Prop
  | nil (n : Nat) : InTurn R n [] n
  | cons {n m next : Nat} {s : Schema} {rest : List Schema} :
      R n s m → InTurn R m rest next → InTurn R n (s :: rest) next

namespace InTurn

variable {R R' : Nat → Schema → Nat → Prop} {n m next : Nat} {ss ts : List Schema}

theorem append (hs : InTurn R n ss m) (ht : InTurn R m ts next) : InTurn R n (ss ++ ts) next := by
  induction hs with
  | nil => exact ht
  | cons hfirst _ ih => exact .cons hfirst (ih ht)

theorem singleton {s : Schema} (h : R n s next) : InTurn R n [s] next := .cons h (.nil next)

theorem imp (h : InTurn R n ss next) (himp : ∀ n s next, R n s next → R' n s next) :
    InTurn R' n ss next := by
  induction h with
  | nil => exact .nil _
  | cons hfirst _ ih => exact .cons (himp _ _ _ hfirst) ih

/-- Each of the schemas is read somewhere. -/
theorem exists_of_mem (h : InTurn R n ss next) {s : Schema} (hs : s ∈ ss) :
    ∃ before behind, R before s behind := by
  induction h with
  | nil => cases hs
  | cons hfirst _ ih =>
    rcases List.mem_cons.mp hs with rfl | hs
    · exact ⟨_, _, hfirst⟩
    · exact ih hs

end InTurn

/-- A schema is read of one of the values right below a schema object. -/
def ReadBelow (members : List (String × Json)) (n : Nat) (s : Schema) (next : Nat) : Prop :=
  ∃ sub location, Subvalue members sub ∧ read sub location n = .ok (s, next)

section Below

variable {members : List (String × Json)} {location : String}

theorem inTurn_readProperties {named : List (String × Json)}
    (hnamed : ∀ m ∈ named, Subvalue members m.2) :
    Ensures (readProperties named location) fun n properties next ↦
      InTurn (ReadBelow members) n (properties.map Prod.snd) next ∧
        Entries.names properties = Entries.names named := by
  induction named with
  | nil =>
    rw [readProperties]
    exact ensures_pure fun n ↦ ⟨.nil n, rfl⟩
  | cons m rest ih =>
    rw [readProperties]
    intro n properties next hread
    obtain ⟨s, middle, more, hs, hmore, rfl⟩ := of_cons_eq_ok hread
    obtain ⟨hfirst, hrest⟩ := List.forall_mem_cons.mp hnamed
    obtain ⟨hturn, hnames⟩ := ih hrest middle more next hmore
    exact ⟨.cons ⟨m.2, _, hfirst, hs⟩ hturn, congrArg (m.1 :: ·) hnames⟩

theorem inTurn_readBranches {values : List Json} (hvalues : ∀ v ∈ values, Subvalue members v)
    (index : Nat) :
    Ensures (readBranches values location index) (InTurn (ReadBelow members)) := by
  induction values generalizing index with
  | nil =>
    rw [readBranches]
    exact ensures_pure fun n ↦ .nil n
  | cons v rest ih =>
    rw [readBranches]
    intro n branches next hread
    obtain ⟨s, middle, more, hs, hmore, rfl⟩ := of_cons_eq_ok hread
    obtain ⟨hfirst, hrest⟩ := List.forall_mem_cons.mp hvalues
    exact .cons ⟨v, _, hfirst, hs⟩ (ih hrest (index + 1) middle more next hmore)

/-- Properties have the names of the members that they are read of. -/
theorem inTurn_propertiesReader :
    Ensures (propertiesReader members location) fun n properties next ↦
      InTurn (ReadBelow members) n (properties.map Prod.snd) next ∧
        (properties = [] ∨ ∃ named, members.lookup "properties" = some (.object named) ∧
          Entries.names properties = Entries.names named) := by
  refine ensures_propertiesReader (fun named hnamed n properties next hread ↦ ?_) fun _ n ↦ ?_
  · obtain ⟨hturn, hnames⟩ :=
      inTurn_readProperties (fun m hm ↦ .property hnamed hm) n properties next hread
    exact ⟨hturn, .inr ⟨named, hnamed, hnames⟩⟩
  · exact ⟨.nil n, .inl rfl⟩

theorem inTurn_partReader {key : String} (hkey : key ∈ ["items", "not"]) :
    Ensures (partReader members key location) fun n part next ↦
      InTurn (ReadBelow members) n part.toList next := by
  refine ensures_partReader (fun value hvalue n s next hread ↦ ?_) fun _ n ↦ .nil n
  exact .singleton ⟨value, _, .part hkey hvalue, hread⟩

theorem inTurn_branchesReader {key : String} (hkey : key ∈ ["allOf", "oneOf", "anyOf"]) :
    Ensures (branchesReader members key location) (InTurn (ReadBelow members)) := by
  refine ensures_branchesReader (fun values hvalues ↦ ?_) fun _ n ↦ .nil n
  exact inTurn_readBranches (fun v hv ↦ .branch hkey hvalues hv) 0

end Below

/-- A schema object that is no reference has been read as a node: its keywords first, and then the
schemas below it in turn. -/
structure NodeRead (members : List (String × Json)) (n : Nat) (s : Schema) (next : Nat) : Prop where
  keywords : ∃ location, Keywords.read members location n = .ok (s.keywords, n + 1)
  children : InTurn (ReadBelow members) (n + 1) s.children next
  properties : s.properties = [] ∨ ∃ named, members.lookup "properties" = some (.object named) ∧
    Entries.names s.properties = Entries.names named

/-- **What can be read of a value**: a node that says nothing, a reference, or a schema object with
its keywords and the schemas below it. -/
theorem read_cases {value : Json} {location : String} {n next : Nat} {s : Schema}
    (hread : read value location n = .ok (s, next)) :
    (s = leaf (.blank n) ∧ next = n + 1) ∨
      (∃ members ref, value = .object members ∧ members.lookup "$ref" = some ref ∧ ref ≠ .null ∧
        s = reference ref n ∧ next = n + 1) ∨
      ∃ members, value = .object members ∧ NodeRead members n s next := by
  cases wasRead_of_read hread with
  | bool b => exact .inl ⟨rfl, rfl⟩
  | void => exact .inl ⟨rfl, rfl⟩
  | reference href hnull => exact .inr (.inl ⟨_, _, rfl, href, hnull, rfl, rfl⟩)
  | object _ hobject =>
    obtain ⟨hkeywords, hproperties, hitems, hallOf, honeOf, hanyOf, hnegated⟩ := hobject
    obtain ⟨hturn, hnames⟩ := inTurn_propertiesReader _ _ _ hproperties
    refine .inr (.inr ⟨_, rfl, ⟨location, hkeywords⟩, ?_, hnames⟩)
    exact ((((hturn.append (inTurn_partReader (by simp) _ _ _ hitems)).append
      (inTurn_branchesReader (by simp) _ _ _ hallOf)).append
      (inTurn_branchesReader (by simp) _ _ _ honeOf)).append
      (inTurn_branchesReader (by simp) _ _ _ hanyOf)).append
      (inTurn_partReader (by simp) _ _ _ hnegated)

/-- What holds of a schema that says nothing and of a reference, and of a node whenever it holds of
the schemas below it, holds of whatever is read. -/
theorem read_induction {P : Nat → Schema → Nat → Prop}
    (blank : ∀ n, P n (leaf (.blank n)) (n + 1))
    (reference : ∀ n ref, ref ≠ .null → P n (reference ref n) (n + 1))
    (node : ∀ members n s next, NodeRead members n s next → InTurn P (n + 1) s.children next →
      P n s next)
    {value : Json} {location : String} {n next : Nat} {s : Schema}
    (hread : read value location n = .ok (s, next)) : P n s next := by
  induction value using schema_induction generalizing location n s next with
  | step value ih =>
    obtain ⟨rfl, rfl⟩ | ⟨members, ref, rfl, -, hnull, rfl, rfl⟩ | ⟨members, rfl, hnode⟩ :=
      read_cases hread
    · exact blank n
    · exact reference n ref hnull
    · refine node members n s next hnode (hnode.children.imp ?_)
      rintro n t next ⟨sub, location, hsub, hread⟩
      exact ih members rfl sub hsub hread

/-! ## Numbers of nodes -/

/-- The positions of the nodes of a tree, a node before the schemas below it and those in turn. -/
def lines (s : Schema) : List Nat := s.line :: s.children.attach.flatMap fun child ↦ lines child.1
termination_by sizeOf s
decreasing_by exact sizeOf_lt_of_mem_children child.2

theorem lines_eq (s : Schema) : s.lines = s.line :: s.children.flatMap lines := by
  rw [lines]
  simp

/-- Schemas whose nodes are numbered without a gap, one behind the other. -/
theorem InTurn.lines_eq {n next : Nat} {ss : List Schema}
    (h : InTurn (fun n s next ↦ ∃ count, next = n + count ∧ s.lines = List.range' n count) n ss
      next) : ∃ count, next = n + count ∧ ss.flatMap lines = List.range' n count := by
  induction h with
  | nil n => exact ⟨0, rfl, rfl⟩
  | @cons n m next s rest hfirst _ ih =>
    obtain ⟨first, rfl, hlines⟩ := hfirst
    obtain ⟨count, rfl, hrest⟩ := ih
    refine ⟨first + count, Nat.add_assoc n first count, ?_⟩
    rw [List.flatMap_cons, hlines, hrest, List.range'_append_1]

/-- **Nodes are numbered without a gap**, in the order in which they stand in the tree. -/
theorem lines_read {value : Json} {location : String} {n next : Nat} {s : Schema}
    (hread : read value location n = .ok (s, next)) :
    ∃ count, next = n + count ∧ s.lines = List.range' n count := by
  refine read_induction (P := fun n s next ↦ ∃ count, next = n + count ∧
    s.lines = List.range' n count) ?_ ?_ ?_ hread
  · exact fun n ↦ ⟨1, rfl, by rw [lines_eq]; rfl⟩
  · exact fun n ref _ ↦ ⟨1, rfl, by rw [lines_eq]; rfl⟩
  · intro members n s next hnode hchildren
    obtain ⟨location, hkeywords⟩ := hnode.keywords
    obtain ⟨count, rfl, hlines⟩ := hchildren.lines_eq
    refine ⟨count + 1, by omega, ?_⟩
    rw [lines_eq, hlines, Schema.line, (line_readKeywords hkeywords).1, List.range'_succ]

/-! ## Normal form -/

/-- Keywords that say nothing have one value only, and the nullable flag is set only where no type
is declared. -/
structure Keywords.Normal (k : Keywords) : Prop where
  nullable : k.nullable = true → k.types = []
  format : k.format.isVoid = true → k.format = .text ""
  title : k.title.isVoid = true → k.title = .text ""
  description : k.description.isVoid = true → k.description = .text ""

/-- A node is a reference that says nothing else, or has keywords in normal form. -/
def NormalNode (s : Schema) : Prop :=
  (∃ ref line, ref ≠ .null ∧ s = reference ref line) ∨ s.ref = none ∧ s.keywords.Normal

/-- All nodes of a tree are in normal form. -/
def Normal (s : Schema) : Prop := ∀ t, Within t s → t.NormalNode

theorem Keywords.normal_blank (line : Nat) : (Keywords.blank line).Normal where
  nullable h := by cases h
  format _ := rfl
  title _ := rfl
  description _ := rfl

/-- A value is kept only where it says something. -/
theorem meaningful_eq_of_isVoid {members : List (String × Json)} {key : String}
    (h : (meaningful members key).isVoid = true) : meaningful members key = .text "" := by
  unfold meaningful at h ⊢
  split
  · next value hvalue =>
    rw [hvalue] at h
    dsimp only at h
    split
    · rfl
    · next hvoid =>
      rw [if_neg hvoid] at h
      exact absurd h hvoid
  · rfl

theorem normal_readKeywords {members : List (String × Json)} {location : String} {n next : Nat}
    {k : Keywords} (hread : Keywords.read members location n = .ok (k, next)) : k.Normal := by
  rw [Keywords.read] at hread
  obtain ⟨line, _, -, hread⟩ := of_bind_eq_ok hread
  obtain ⟨declared, _, -, hread⟩ := of_bind_eq_ok hread
  obtain ⟨required, _, -, hread⟩ := of_bind_eq_ok hread
  cases hread
  refine ⟨fun hnullable ↦ ?_, meaningful_eq_of_isVoid, meaningful_eq_of_isVoid,
    meaningful_eq_of_isVoid⟩
  exact List.isEmpty_iff.mp (Bool.and_eq_true_iff.mp hnullable).2

theorem Normal.of_mem_children {s child : Schema} (h : s.Normal) (hchild : child ∈ s.children) :
    child.Normal :=
  fun t ht ↦ h t (.step hchild ht)

/-- What is read is in normal form. -/
theorem normal_read {value : Json} {location : String} {n next : Nat} {s : Schema}
    (hread : read value location n = .ok (s, next)) : s.Normal := by
  refine read_induction (P := fun _ s _ ↦ s.Normal) ?_ ?_ ?_ hread
  · exact fun n ↦
      forall_within (.inr ⟨rfl, Keywords.normal_blank n⟩) fun child hchild ↦ by cases hchild
  · exact fun n ref hnull ↦
      forall_within (.inl ⟨ref, n, hnull, rfl⟩) fun child hchild ↦ by cases hchild
  · intro members n s next hnode hchildren
    obtain ⟨location, hkeywords⟩ := hnode.keywords
    refine forall_within (.inr ⟨ref_readKeywords hkeywords, normal_readKeywords hkeywords⟩) ?_
    intro child hchild
    obtain ⟨_, _, hnormal⟩ := hchildren.exists_of_mem hchild
    exact hnormal

/-! ## What a node says -/

/-- A value that is only written when it says something. -/
def said (value : Json) : Option Json := if value.isVoid then none else some value

/-- What a node says under each keyword, if it says anything there. -/
def sayings (s : Schema) : List (String × Option Json) :=
  [("$ref", s.ref),
   ("type", said (textList s.types)),
   ("nullable", said (.bool s.keywords.nullable)),
   ("properties", said (.object (s.properties.map fun (name, t) ↦ (name, t.toJson)))),
   ("required", said (.list s.keywords.required)),
   ("items", s.items.map toJson),
   ("allOf", said (.list (s.allOf.map toJson))),
   ("oneOf", said (.list (s.oneOf.map toJson))),
   ("anyOf", said (.list (s.anyOf.map toJson))),
   ("not", s.negated.map toJson),
   ("format", said s.keywords.format),
   ("title", said s.keywords.title),
   ("description", said s.keywords.description),
   ("const", s.keywords.const)]

theorem nodup_sayings (s : Schema) : (Entries.names s.sayings).Nodup := by
  change List.Nodup ["$ref", "type", "nullable", "properties", "required", "items", "allOf",
    "oneOf", "anyOf", "not", "format", "title", "description", "const"]
  decide

/-- The members of the object that a node is written as. -/
def writtenMembers (s : Schema) : List (String × Json) :=
  Entries.present s.sayings

theorem member_eq_toList (key : String) (value : Json) :
    member key value = ((said value).map (key, ·)).toList := by
  unfold member said
  split <;> rfl

theorem toJson_eq_writtenMembers (s : Schema) : s.toJson = .object s.writtenMembers := by
  have hpart : ∀ (key : String) (part : Option Schema),
      (part.map fun t ↦ (key, t.toJson)).toList = ((part.map toJson).map (key, ·)).toList := by
    intro key part
    rw [Option.map_map]
    rfl
  rw [toJson_eq, writtenMembers, Entries.present, sayings, Schema.ref]
  simp only [member_eq_toList, hpart, List.flatMap_cons, List.flatMap_nil, List.append_assoc]
  cases s.keywords.ref <;> cases s.keywords.const <;> rfl

/-- What a node says under a keyword is written under it. -/
theorem lookup_writtenMembers {s : Schema} {key : String} {value : Option Json}
    (h : (key, value) ∈ s.sayings) : s.writtenMembers.lookup key = value :=
  Entries.lookup_present_of_mem s.nodup_sayings h

/-! ## Reading what has been written -/

/-- Wherever it begins, a reader gets a value that is as given up to a map. -/
def Reader.Gives {α β : Type} (g : α → β) (x : Reader α) (b : β) : Prop :=
  ∀ n, ∃ a next, x n = .ok (a, next) ∧ g a = b

namespace Reader

variable {α β γ δ : Type} {x : Reader α} {f : α → Reader β}

theorem gives_pure {g : α → β} {a : α} {b : β} (h : g a = b) : Gives g (pure a : Reader α) b :=
  fun n ↦ ⟨a, n, rfl, h⟩

theorem Gives.bind {g : α → γ} {c : γ} {h : β → δ} {d : δ} (hx : Gives g x c)
    (hf : ∀ a, g a = c → Gives h (f a) d) : Gives h (x >>= f) d := by
  intro n
  obtain ⟨a, m, hxn, ha⟩ := hx n
  rw [bind_of_ok hxn]
  exact hf a ha m

theorem Gives.some {g : α → β} {b : β} (hx : Gives g x b) :
    Gives (Option.map g) (some <$> x) (some b) := by
  rw [map_eq_pure_bind]
  exact hx.bind fun a ha ↦ gives_pure (congrArg Option.some ha)

end Reader

theorem textItems_map_text (texts : List String) :
    textItems (texts.map Json.text) = some texts := by
  induction texts with
  | nil => rfl
  | cons text rest ih => rw [List.map_cons, textItems, ih]; rfl

section Written

variable {s : Schema} (location : String)

theorem declaredTypes_writtenMembers : declaredTypes s.writtenMembers location = .ok s.types := by
  have hlookup : s.writtenMembers.lookup "type" = said (textList s.types) :=
    lookup_writtenMembers (by simp [sayings])
  rw [declaredTypes, hlookup]
  cases htypes : s.types with
  | nil => rfl
  | cons type rest =>
    have hsaid : said (textList (type :: rest)) = some (.list ((type :: rest).map Json.text)) := rfl
    rw [hsaid]
    dsimp only
    rw [textItems_map_text]

theorem nullableFlag_writtenMembers : nullableFlag s.writtenMembers = s.keywords.nullable := by
  have hlookup : s.writtenMembers.lookup "nullable" = said (.bool s.keywords.nullable) :=
    lookup_writtenMembers (by simp [sayings])
  rw [nullableFlag, hlookup]
  cases s.keywords.nullable <;> rfl

theorem requiredNames_writtenMembers :
    requiredNames s.writtenMembers = .ok s.keywords.required := by
  have hlookup : s.writtenMembers.lookup "required" = said (.list s.keywords.required) :=
    lookup_writtenMembers (by simp [sayings])
  rw [requiredNames, hlookup]
  cases s.keywords.required <;> rfl

/-- A value that is kept as it is read is read as it is written. -/
theorem meaningful_writtenMembers {key : String} {value : Json}
    (hmem : (key, said value) ∈ s.sayings) (hvoid : value.isVoid = true → value = .text "") :
    meaningful s.writtenMembers key = value := by
  rw [meaningful, lookup_writtenMembers hmem, said]
  cases h : value.isVoid with
  | true => exact (hvoid h).symm
  | false => simp [h]

theorem read_keywords_writtenMembers (href : s.ref = none) (hnormal : s.keywords.Normal) :
    Gives (fun k ↦ { k with line := 0 }) (Keywords.read s.writtenMembers location)
      { s.keywords with line := 0 } := by
  have htypes : withNull s.keywords.nullable s.types = s.types := by
    cases hnullable : s.keywords.nullable with
    | false => rfl
    | true => rw [Schema.types, hnormal.nullable hnullable]; rfl
  have hnullable : (s.keywords.nullable && s.types.isEmpty) = s.keywords.nullable := by
    cases hnullable : s.keywords.nullable with
    | false => rfl
    | true => rw [Schema.types, hnormal.nullable hnullable]; rfl
  have hconst : s.writtenMembers.lookup "const" = s.keywords.const :=
    lookup_writtenMembers (by simp [sayings])
  rw [Keywords.read, declaredTypes_writtenMembers, requiredNames_writtenMembers]
  refine fun n ↦ ⟨_, _, rfl, ?_⟩
  dsimp only
  rw [nullableFlag_writtenMembers, htypes, hnullable,
    meaningful_writtenMembers (by simp [sayings]) hnormal.format,
    meaningful_writtenMembers (by simp [sayings]) hnormal.title,
    meaningful_writtenMembers (by simp [sayings]) hnormal.description, hconst, ← href]
  rfl

theorem gives_readProperties {properties : List (String × Schema)}
    (h : ∀ p ∈ properties, ∀ location, Gives unnumbered (read p.2.toJson location) p.2.unnumbered) :
    Gives withoutPositions
      (readProperties (properties.map fun (name, t) ↦ (name, t.toJson)) location)
      (withoutPositions properties) := by
  induction properties with
  | nil =>
    rw [List.map_nil, readProperties]
    exact gives_pure rfl
  | cons p rest ih =>
    rw [List.map_cons, readProperties]
    have hrest := ih fun p hp ↦ h p (List.mem_cons_of_mem _ hp)
    refine (h p List.mem_cons_self _).bind fun t ht ↦ hrest.bind fun more hmore ↦ gives_pure ?_
    change (p.1, t.unnumbered) :: withoutPositions more = _
    rw [ht, hmore]
    rfl

theorem gives_readBranches {branches : List Schema}
    (h : ∀ t ∈ branches, ∀ location, Gives unnumbered (read t.toJson location) t.unnumbered)
    (index : Nat) :
    Gives (List.map unnumbered) (readBranches (branches.map toJson) location index)
      (branches.map unnumbered) := by
  induction branches generalizing index with
  | nil =>
    rw [List.map_nil, readBranches]
    exact gives_pure rfl
  | cons t rest ih =>
    rw [List.map_cons, readBranches]
    have hrest := ih (fun t ht ↦ h t (List.mem_cons_of_mem _ ht)) (index + 1)
    refine (h t List.mem_cons_self _).bind fun u hu ↦ hrest.bind fun more hmore ↦ gives_pure ?_
    rw [List.map_cons, hu, hmore, List.map_cons]

variable (h : ∀ child ∈ s.children,
  ∀ location, Gives unnumbered (read child.toJson location) child.unnumbered)

include h

theorem gives_propertiesReader :
    Gives withoutPositions (propertiesReader s.writtenMembers location)
      (withoutPositions s.properties) := by
  have hlookup : s.writtenMembers.lookup "properties" =
      said (.object (s.properties.map fun (name, t) ↦ (name, t.toJson))) :=
    lookup_writtenMembers (by simp [sayings])
  have hgives := gives_readProperties location fun p hp ↦
    h p.2 (mem_children_of_mem_properties hp)
  rw [propertiesReader, hlookup]
  cases hproperties : s.properties with
  | nil => exact gives_pure rfl
  | cons p rest =>
    rw [hproperties] at hgives
    exact hgives

theorem gives_partReader {key : String} (part : Option Schema)
    (hmem : (key, part.map toJson) ∈ s.sayings) (hpart : ∀ t, part = some t → t ∈ s.children) :
    Gives (Option.map unnumbered) (partReader s.writtenMembers key location)
      (part.map unnumbered) := by
  rw [partReader, lookup_writtenMembers hmem]
  cases part with
  | none => exact gives_pure rfl
  | some t => exact (h t (hpart t rfl) location).some

theorem gives_branchesReader {key : String} (branches : List Schema)
    (hmem : (key, said (.list (branches.map toJson))) ∈ s.sayings)
    (hbranches : ∀ t ∈ branches, t ∈ s.children) :
    Gives (List.map unnumbered) (branchesReader s.writtenMembers key location)
      (branches.map unnumbered) := by
  have hgives := gives_readBranches location (fun t ht ↦ h t (hbranches t ht)) 0
  rw [branchesReader, lookup_writtenMembers hmem]
  cases branches with
  | nil => exact gives_pure rfl
  | cons t rest => exact hgives

end Written

/-- **A tree in normal form is read as it is written**, apart from positions. -/
theorem gives_read_toJson {s : Schema} (hnormal : s.Normal) (location : String) :
    Gives unnumbered (read s.toJson location) s.unnumbered := by
  induction s using children_induction generalizing location with
  | step s ih =>
    have hchildren := fun child hchild ↦ ih child hchild (hnormal.of_mem_children hchild)
    rw [toJson_eq_writtenMembers]
    obtain ⟨ref, line, hnull, rfl⟩ | ⟨href, hkeywords⟩ := hnormal s .self
    · have hfound : (reference ref line).writtenMembers.lookup "$ref" = some ref :=
        lookup_writtenMembers List.mem_cons_self
      rw [read_object_of_ref hfound]
      refine fun n ↦ ⟨_, _, rfl, ?_⟩
      cases ref <;> first | exact absurd rfl hnull | rw [unnumbered_eq, unnumbered_eq]; rfl
    · have hmissing : s.writtenMembers.lookup "$ref" = none :=
        lookup_writtenMembers (by simp [sayings, href])
      rw [read_object hmissing]
      refine (read_keywords_writtenMembers location href hkeywords).bind fun k hk ↦ ?_
      refine (gives_propertiesReader location hchildren).bind fun properties hproperties ↦ ?_
      refine (gives_partReader _ hchildren s.items (by simp [sayings])
        fun _ ↦ mem_children_of_items_eq_some).bind fun items hitems ↦ ?_
      refine (gives_branchesReader _ hchildren s.allOf (by simp [sayings])
        fun _ ↦ mem_children_of_mem_allOf).bind fun allOf hallOf ↦ ?_
      refine (gives_branchesReader _ hchildren s.oneOf (by simp [sayings])
        fun _ ↦ mem_children_of_mem_oneOf).bind fun oneOf honeOf ↦ ?_
      refine (gives_branchesReader _ hchildren s.anyOf (by simp [sayings])
        fun _ ↦ mem_children_of_mem_anyOf).bind fun anyOf hanyOf ↦ ?_
      refine (gives_partReader _ hchildren s.negated (by simp [sayings])
        fun t ht ↦ mem_children_iff.mpr (by simp [ht])).bind fun negated hnegated ↦ ?_
      refine gives_pure ?_
      rw [unnumbered_eq, unnumbered_eq]
      exact congr (congr (congr (congr (congr (congr (congrArg node hk) hproperties) hitems)
        hallOf) honeOf) hanyOf) hnegated

/-- The schemas below a node are the same but for their positions. -/
theorem Renumbers.children {f : Schema → Schema} (hf : Renumbers f) (s : Schema) :
    (f s).children = s.children.map f := by
  have hpart : ∀ part : Option Schema, (part.map f).toList = part.toList.map f := by
    rintro (_ | t) <;> rfl
  rw [Schema.children, Schema.children, hf.properties, hf.items, hf.allOf, hf.oneOf, hf.anyOf,
    hf.negated]
  simp only [List.map_append, List.map_map, hpart]
  rfl

/-- Trees that differ in positions only have as many nodes. -/
theorem length_lines_unnumbered (s : Schema) : s.unnumbered.lines.length = s.lines.length := by
  induction s using children_induction with
  | step s ih =>
    rw [lines_eq, lines_eq, List.length_cons, List.length_cons, renumbers_unnumbered.children,
      List.flatMap_map, List.length_flatMap, List.length_flatMap]
    refine congrArg (List.sum · + 1) (List.map_congr_left ?_)
    exact ih

/-- **Whatever is read is read once more as it is written**: every field of every node is as it
was, and numbers begin at one instead of where they began. -/
theorem read_toJson_of_read {value : Json} {location : String} {n next : Nat} {s : Schema}
    (hread : read value location (n + 1) = .ok (s, next)) (location' : String) :
    ∃ t last, read s.toJson location' 1 = .ok (t, last) ∧ t.unnumbered = s.unnumbered ∧
      s.lines = t.lines.map (· + n) := by
  obtain ⟨t, last, hagain, hsame⟩ := gives_read_toJson (normal_read hread) location' 1
  refine ⟨t, last, hagain, hsame, ?_⟩
  obtain ⟨count, -, hs⟩ := lines_read hread
  obtain ⟨count', -, ht⟩ := lines_read hagain
  have hlength : t.lines.length = s.lines.length := by
    rw [← length_lines_unnumbered, hsame, length_lines_unnumbered]
  have hcount : count' = count := by
    rwa [hs, ht, List.length_range', List.length_range'] at hlength
  have hshift : (fun line ↦ line + n) = (n + ·) := funext fun line ↦ Nat.add_comm line n
  rw [hs, ht, hcount, hshift, List.map_add_range', Nat.add_comm n 1]

/-- A nullable object with a reference and with a property that is null. -/
def memberSchema : Json :=
  .object
    [("nullable", .bool true),
     ("title", .null),
     ("type", .text "object"),
     ("properties", .object
       [("user", .object [("$ref", .text "#/components/schemas/User"), ("title", .text "User")]),
        ("nick", .object [("nullable", .bool true), ("const", .null)])])]

/-- What a nullable object is read as, from number three on. -/
def memberNode : Schema :=
  .node { Keywords.blank 3 with types := ["object", "null"] }
    [("user", reference (.text "#/components/schemas/User") 4),
     ("nick", leaf { Keywords.blank 5 with nullable := true, const := some .null })]
    none [] [] [] none

theorem read_toJson_of_read_member :
    read memberSchema "" 3 = .ok (memberNode, 6) ∧
      ∃ t last, read memberNode.toJson "" 1 = .ok (t, last) ∧
        t.unnumbered = memberNode.unnumbered ∧ memberNode.lines = t.lines.map (· + 2) := by
  have hread : read memberSchema "" (2 + 1) = .ok (memberNode, 6) := by cbv
  exact ⟨hread, read_toJson_of_read hread ""⟩

end Schema

end SchemaTypes
