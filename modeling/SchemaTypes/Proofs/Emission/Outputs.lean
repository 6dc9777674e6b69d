import Mathlib.Data.List.ReduceOption
import SchemaTypes.Proofs.Elements
import SchemaTypes.Proofs.Emission.Closure

/-!
# What emissions leave behind

An emission that ends by itself leaves its output behind: the text that it has written, the packages
that it has required, the declarations that it has handed over, and the issues that it has reported.
What the output for a node looks like is said here once, rule by rule, from the outputs for the
schemas right below it (`Schema.WritesNode`), and the rules for nodes keep to that
(`TypeExpression.ensures_nodeType`).

So whoever wants to know something of all outputs has a case analysis before them instead of an
execution: a property that every node has if the schemas right below it have it is a property of
what is emitted for every schema (`Schema.ensures_emit`), and what is declared for an entry is made
of that (`Schema.ensures_emitNamed`).

Of the memory of the table search the rules know only that it is kept to something, and of what is
found in tables only that it may be found (`Environment.Documents`).
-/

namespace SchemaTypes

open Correlator Declaration Event

/-- What an emission leaves behind that ends by itself. -/
@[ext]
structure Output where
  text : String
  /-- The packages that are needed, in turn. -/
  packages : List Json.Key
  /-- The declarations that are handed over by their names, in turn. -/
  declarations : List (String × String)
  /-- The issues that are reported, in turn. -/
  issues : List Issue

namespace Output

/-- Only a text. -/
def written (text : String) : Output := ⟨text, [], [], []⟩

def nothing : Output := written ""

/-- Only the need of a package. -/
def need (package : Json.Key) : Output := ⟨"", [package], [], []⟩

/-- Only a declaration that is handed over. -/
def declaration (name text : String) : Output := ⟨"", [], [(name, text)], []⟩

/-- Only issues. -/
def flawed (issues : List Issue) : Output := ⟨"", [], [], issues⟩

/-- The output with another text. -/
def mapText (f : String → String) (o : Output) : Output := { o with text := f o.text }

instance : Append Output where
  append a b := {
    text := a.text ++ b.text
    packages := a.packages ++ b.packages
    declarations := a.declarations ++ b.declarations
    issues := a.issues ++ b.issues }

/-- Outputs one behind the other. -/
def join : List Output → Output
  | [] => nothing
  | o :: rest => o ++ join rest

variable (a b c : Output)

@[simp] theorem text_append : (a ++ b).text = a.text ++ b.text := rfl

@[simp] theorem packages_append : (a ++ b).packages = a.packages ++ b.packages := rfl

@[simp] theorem declarations_append : (a ++ b).declarations = a.declarations ++ b.declarations :=
  rfl

@[simp] theorem issues_append : (a ++ b).issues = a.issues ++ b.issues := rfl

/-- Only a text shows in front of a text. -/
theorem text_flawed_append (issues : List Issue) : (flawed issues ++ a).text = a.text :=
  String.empty_append

theorem text_need_append (package : Json.Key) : (need package ++ a).text = a.text :=
  String.empty_append

theorem text_declaration_append (name text : String) :
    (declaration name text ++ a).text = a.text :=
  String.empty_append

@[simp] theorem nothing_append : nothing ++ a = a :=
  Output.ext String.empty_append (List.nil_append _) (List.nil_append _) (List.nil_append _)

@[simp] theorem append_nothing : a ++ nothing = a :=
  Output.ext String.append_empty (List.append_nil _) (List.append_nil _) (List.append_nil _)

theorem append_assoc : a ++ b ++ c = a ++ (b ++ c) :=
  Output.ext String.append_assoc (List.append_assoc _ _ _) (List.append_assoc _ _ _)
    (List.append_assoc _ _ _)

/-- A text that is taken out and written again with something around it. -/
theorem mapText_append_written (f : String → String) :
    a.mapText (fun _ ↦ "") ++ written (f a.text) = a.mapText f :=
  Output.ext String.empty_append (List.append_nil _) (List.append_nil _) (List.append_nil _)

theorem written_append_append_written (s t : String) :
    written s ++ (a ++ written t) = a.mapText fun text ↦ s ++ text ++ t := by
  refine Output.ext String.append_assoc.symm ?_ ?_ ?_
  · exact (List.nil_append _).trans (List.append_nil _)
  · exact (List.nil_append _).trans (List.append_nil _)
  · exact (List.nil_append _).trans (List.append_nil _)

theorem mapText_append_need (f : String → String) (package : Json.Key) :
    a.mapText (fun _ ↦ "") ++ (need package ++ written (f a.text)) =
      a.mapText f ++ need package := by
  refine Output.ext ?_ rfl rfl rfl
  simp only [mapText, need, written, text_append, String.empty_append, String.append_empty]

theorem text_join (outputs : List Output) :
    (join outputs).text = String.join (outputs.map Output.text) := by
  induction outputs with
  | nil => rfl
  | cons o rest ih => rw [join, text_append, ih, List.map_cons, String.join_cons]

theorem declarations_join (outputs : List Output) :
    (join outputs).declarations = outputs.flatMap Output.declarations := by
  induction outputs with
  | nil => rfl
  | cons o rest ih => rw [join, declarations_append, ih, List.flatMap_cons]

theorem issues_join (outputs : List Output) :
    (join outputs).issues = outputs.flatMap Output.issues := by
  induction outputs with
  | nil => rfl
  | cons o rest ih => rw [join, issues_append, ih, List.flatMap_cons]

theorem text_join_eq_empty {outputs : List Output} (h : ∀ o ∈ outputs, o.text = "") :
    (join outputs).text = "" := by
  induction outputs with
  | nil => rfl
  | cons o rest ih =>
    obtain ⟨ho, hrest⟩ := List.forall_mem_cons.mp h
    rw [join, text_append, ho, ih hrest, String.append_empty]

theorem join_eq_nothing {ι : Type} {xs : List ι} {outputs : List Output}
    (h : List.Forall₂ (fun _ o ↦ o = nothing) xs outputs) : join outputs = nothing := by
  induction h with
  | nil => rfl
  | cons ho _ ih => rw [join, ho, ih, nothing_append]

end Output

/-- The output of an emission. -/
def Emission.output {α : Type} (e : Emission α) : Output :=
  ⟨e.text, requirements e.events, registrations e.events, reports e.events⟩

namespace Emit

variable {α β ι : Type}

/-- Whenever an emission ends by itself, its result and its output are as said. What is remembered
of tables is kept to something. -/
def Ensures (keeps : Memory → Prop) (x : Emit α) (post : α → Output → Prop) : Prop :=
  ∀ memory a, keeps memory → (x memory).result = .ok a →
    keeps (x memory).memory ∧ post a (x memory).output

namespace Ensures

variable {keeps : Memory → Prop} {x : Emit α} {f : α → Emit β} {p p' : α → Output → Prop}
  {q : β → Output → Prop}

theorem mono (h : Ensures keeps x p) (himp : ∀ a o, p a o → p' a o) : Ensures keeps x p' := by
  intro memory a hmemory ha
  obtain ⟨hlater, hpost⟩ := h memory a hmemory ha
  exact ⟨hlater, himp _ _ hpost⟩

theorem done {a : α} (h : p a .nothing) : Ensures keeps (done a) p := by
  intro memory b hmemory hb
  cases hb
  exact ⟨hmemory, h⟩

theorem bind (hx : Ensures keeps x p)
    (hf : ∀ a o, p a o → Ensures keeps (f a) fun b o' ↦ q b (o ++ o')) :
    Ensures keeps (x >>= f) q := by
  intro memory b hmemory hb
  rcases hrun : x memory with ⟨acts, later, result⟩
  cases result with
  | error e =>
    rw [bind_apply_of_error hrun] at hb
    cases hb
  | ok a =>
    have hfirst := hx memory a hmemory (by rw [hrun])
    rw [hrun] at hfirst
    rw [bind_apply_of_ok hrun] at hb ⊢
    obtain ⟨hlater, hnext⟩ := hf a _ hfirst.2 later b hfirst.1 hb
    refine ⟨hlater, ?_⟩
    have houtput : (Emission.mk (acts ++ (f a later).acts) (f a later).memory
        (f a later).result).output =
          (Emission.mk acts later (Except.ok a)).output ++ (f a later).output := by
      refine Output.ext (Act.text_append _ _) ?_ ?_ ?_
      · simp only [Emission.output, Emission.events, Act.events_append, requirements,
          List.filterMap_append, Output.packages_append]
      · simp only [Emission.output, Emission.events, Act.events_append, registrations_append,
          Output.declarations_append]
      · simp only [Emission.output, Emission.events, Act.events_append, reports_append,
          Output.issues_append]
    rw [houtput]
    exact hnext

theorem lift_bind {value : Except Mismatch α} (h : ∀ a, value = .ok a → Ensures keeps (f a) q) :
    Ensures keeps (lift value >>= f) q := by
  cases value with
  | ok a => exact h a rfl
  | error e =>
    intro memory b hmemory hb
    cases hb

variable {g : Unit → Emit β} {post : Unit → Output → Prop}

theorem write {text : String} (h : post () (.written text)) :
    Ensures keeps (Emit.write text) post := by
  intro memory a hmemory _
  have houtput : (Emit.write text memory).output = .written text :=
    Output.ext String.append_empty rfl rfl rfl
  rw [houtput]
  exact ⟨hmemory, h⟩

theorem write_bind {text : String} (h : Ensures keeps (g ()) fun b o ↦ q b (.written text ++ o)) :
    Ensures keeps (Emit.write text >>= g) q := by
  have hwrite : Ensures keeps (Emit.write text) fun _ o ↦ o = .written text := write rfl
  refine hwrite.bind fun _ o ho ↦ ?_
  rw [ho]
  exact h

theorem note_bind {level : Log.Level} {source : Log.Source} {message : String}
    (h : Ensures keeps (g ()) q) : Ensures keeps (note level source message >>= g) q := h

theorem issue_bind {path : Path} {cause : Issue.Cause}
    (h : Ensures keeps (g ()) fun b o ↦ q b (.flawed [⟨path.text, cause⟩] ++ o)) :
    Ensures keeps (Environment.issue path cause >>= g) q := by
  have hissue : Ensures keeps (Environment.issue path cause) fun _ o ↦
      o = .flawed [⟨path.text, cause⟩] :=
    fun memory _ hmemory _ ↦ ⟨hmemory, rfl⟩
  refine hissue.bind fun _ o ho ↦ ?_
  rw [ho]
  exact h

theorem mention {name : String} (h : post () (.written name)) :
    Ensures keeps (Emit.mention name) post :=
  write h

theorem require_bind {package : Json.Key}
    (h : Ensures keeps (g ()) fun b o ↦ q b (.need package ++ o)) :
    Ensures keeps (tell (.require package) >>= g) q := by
  have htell : Ensures keeps (tell (.require package)) fun _ o ↦ o = .need package :=
    fun memory _ hmemory _ ↦ ⟨hmemory, rfl⟩
  refine htell.bind fun _ o ho ↦ ?_
  rw [ho]
  exact h

theorem register {name text : String} (h : post () (.declaration name text)) :
    Ensures keeps (tell (.register name text)) post :=
  fun _ _ hmemory _ ↦ ⟨hmemory, h⟩

theorem hoist {name text : String} (h : post () (.declaration name text ++ .written name)) :
    Ensures keeps (Emit.hoist name text) post := by
  have htell : Ensures keeps (tell (.register name text)) fun _ o ↦ o = .declaration name text :=
    register rfl
  refine htell.bind fun _ o ho ↦ mention ?_
  rw [ho]
  exact h

theorem capture {x : Emit Unit} {p : Output → Prop} (h : Ensures keeps x fun _ ↦ p) :
    Ensures keeps (capture x) fun text o ↦
      ∃ inner, p inner ∧ text = inner.text ∧ o = inner.mapText fun _ ↦ "" := by
  intro memory text hmemory htext
  obtain ⟨hended, rfl⟩ := of_result_capture_eq_ok htext
  obtain ⟨hlater, hpost⟩ := h memory () hmemory hended
  refine ⟨hlater, (x memory).output, hpost, rfl, ?_⟩
  exact Output.ext (Act.text_map_tell _) (congrArg requirements (Act.events_map_tell _))
    (congrArg registrations (Act.events_map_tell _)) (congrArg reports (Act.events_map_tell _))

/-- What is captured and written again with something around it. -/
theorem capture_write {x : Emit Unit} {p : Output → Prop} (h : Ensures keeps x fun _ ↦ p)
    (g : String → String) :
    Ensures keeps (Emit.capture x >>= fun text ↦ Emit.write (g text)) fun _ o ↦
      ∃ inner, p inner ∧ o = inner.mapText g := by
  refine h.capture.bind ?_
  rintro _ _ ⟨inner, hinner, rfl, rfl⟩
  exact write ⟨inner, hinner, inner.mapText_append_written g⟩

theorem whenever {condition : Bool} {x : Emit Unit} {p : Output → Prop}
    (hx : condition = true → Ensures keeps x fun _ ↦ p)
    (hnothing : condition = false → p .nothing) :
    Ensures keeps (Emit.whenever condition x) fun _ ↦ p := by
  cases condition with
  | true => exact hx rfl
  | false => exact done (hnothing rfl)

theorem each {xs : List ι} {f : ι → Emit Unit} {p : ι → Output → Prop}
    (h : ∀ i ∈ xs, Ensures keeps (f i) fun _ ↦ p i) :
    Ensures keeps (Emit.each (xs.map f)) fun _ o ↦
      ∃ outputs, List.Forall₂ p xs outputs ∧ o = .join outputs := by
  induction xs with
  | nil => exact done ⟨[], .nil, rfl⟩
  | cons i rest ih =>
    obtain ⟨hi, hrest⟩ := List.forall_mem_cons.mp h
    refine bind hi fun _ o ho ↦ (ih hrest).mono ?_
    rintro _ _ ⟨outputs, houtputs, rfl⟩
    exact ⟨o :: outputs, .cons ho houtputs, rfl⟩

end Ensures

end Emit

/-! ## Outputs of nodes -/

namespace Schema

open TypeExpression

variable (env : Environment) (documents : List (String × FieldInfo) → Prop)
  (part : Schema → Path → Output → Prop)

/-- The comment of a field is written, if documentation has one. -/
inductive WritesComment (documented : List (String × FieldInfo)) (name identifier : String) :
    String → Prop
  | none : WritesComment documented name identifier ""
  | some {info : FieldInfo} {description : String} : documented.lookup name = some info →
      info.comment.textOr "strip" = .ok description →
      WritesComment documented name identifier
        (Comment.partComment (Comment.prose identifier description name))

theorem WritesComment.eq_partComment {documented : List (String × FieldInfo)}
    {name identifier comment : String} (h : WritesComment documented name identifier comment) :
    comment = "" ∨ ∃ sentence, comment = Comment.partComment sentence := by
  cases h with
  | none => exact .inl rfl
  | some => exact .inr ⟨_, rfl⟩

/-- The line of a property is written. -/
inductive WritesField (s : Schema) (documented : List (String × FieldInfo)) (path : Path) :
    String × Schema → Output → Prop
  | unnamed {name : String} {t : Schema} : (Identifier.ofSnakeCase name).isEmpty = true →
      WritesField s documented path (name, t) .nothing
  | required {name comment : String} {t : Schema} {o : Output} :
      (Identifier.ofSnakeCase name).isEmpty = false → s.requires name = true →
      WritesComment documented name (Identifier.ofSnakeCase name) comment →
      part t (path.push name) o →
      WritesField s documented path (name, t) (.written comment ++ o.mapText fun type ↦
        "\t" ++ Identifier.ofSnakeCase name ++ " " ++ type ++ " `json:\"" ++ name ++ "\"`\n")
  | optional {name comment : String} {t : Schema} {o : Output} {package : Json.Key} :
      (Identifier.ofSnakeCase name).isEmpty = false → s.requires name = false →
      WritesComment documented name (Identifier.ofSnakeCase name) comment →
      part t (path.push name) o → env.options.optionImportPath.asKey = .ok package →
      WritesField s documented path (name, t) (.written comment ++ ((o.mapText fun type ↦
        "\t" ++ Identifier.ofSnakeCase name ++ " " ++ TypeExpression.optional type ++
          " `json:\"" ++ name ++ ",omitempty\"`\n") ++ .need package))

/-- The lines of all properties are written, between braces. -/
def WritesObject (s : Schema) (path : Path) (o : Output) : Prop :=
  ∃ documented fields, documents documented ∧
    List.Forall₂ (WritesField env part s documented path) s.sortedProperties fields ∧
    o = .written "struct \x7b\n" ++ (.join fields ++ .written "\x7d")

/-- The member of a composition is written as an embedded field. -/
def WritesMember (path : Path) (member : Schema × Nat) (o : Output) : Prop :=
  ∃ inner, part member.1 (path.push ("_allOf[" ++ toString member.2 ++ "]")) inner ∧
    o = inner.mapText fun type ↦ "\t" ++ type ++ "\n"

/-- What comes of a branch of a set: a constant, if the branch has a value. -/
inductive YieldsConstant (type : String) (branch : Schema) : Option Constant → Prop
  | constant {node : Schema} {value : Json} {c : Constant} :
      env.document.deref branch = .ok node → node.keywords.const = some value →
      TypeExpression.constant type node.keywords value = .ok c →
      YieldsConstant type branch (some c)
  | nothing {node : Schema} : env.document.deref branch = .ok node →
      node.keywords.const = none → YieldsConstant type branch none

/-- Constants come of branches that have a value. -/
def AreConstants (type : String) (branches : List Schema) (constants : List Constant) : Prop :=
  ∀ c ∈ constants, ∃ branch ∈ branches, ∃ node value, env.document.deref branch = .ok node ∧
    node.keywords.const = some value ∧ constant type node.keywords value = .ok c

/-- A set of constants is written over a base type: behind it at a root, and handed over as a type
of its own elsewhere. -/
inductive WritesConstants (s : Schema) (path : Path) (base : String) : Output → Prop
  | root {constants : List Constant} {issues : List Issue} : path.isRoot = true →
      AreConstants env (declaredName path) s.oneOf constants →
      WritesConstants s path base (.flawed issues ++
        .written (base ++ "\n\n" ++ constantBlock (declaredName path) constants))
  | hoisted {constants : List Constant} {issues : List Issue} : path.isRoot = false →
      AreConstants env (declaredName path) s.oneOf constants →
      WritesConstants s path base (.flawed issues ++
        (.declaration (declaredName path) ("type " ++ declaredName path ++ " " ++ base ++ "\n\n" ++
          constantBlock (declaredName path) constants ++ "\n\n") ++ .written (declaredName path)))

/-- The type that an integer is written over. -/
inductive IntegerBase (s : Schema) : Json → Prop
  | name {member : Schema} {ref : String} : member ∈ s.allOf →
      member.isSchemaReference = .ok true → member.refName = .ok ref →
      IntegerBase s (.text (env.typeName ref))
  | plain : s.keywords.format.isVoid = true → IntegerBase s (.text "int")
  | format : s.keywords.format.isVoid = false → IntegerBase s s.keywords.format

/-- An inline variant of a union is handed over; one that refers to a schema is declared there. -/
inductive WritesVariant (path : Path) : String × Schema → Output → Prop
  | elsewhere {name : String} {t : Schema} : t.isSchemaReference = .ok true →
      WritesVariant path (name, t) .nothing
  | inline {name : String} {t : Schema} {o : Output} : t.isSchemaReference = .ok false →
      part t (path.push name) o →
      WritesVariant path (name, t) ((o.mapText fun _ ↦ "") ++
        .declaration name ("type " ++ name ++ " " ++ o.text ++ "\n\n"))

/-- The block of a union is written, and its inline variants are handed over. -/
inductive WritesUnion (union : String) (branches : List Schema) (path : Path) : Output → Prop
  | intro {names : List String} {variants : List Output} :
      variantNames env union branches = .ok names →
      List.Forall₂ (WritesVariant part path) (names.zip branches) variants →
      WritesUnion union branches path
        (.written (trimFeeds (unionBlock union names) ++ "\n\n") ++ .join variants)

/-- What is written for a node by its kind. -/
inductive WritesKind (s : Schema) (path : Path) : Output → Prop
  | object {o : Output} : s.IsObject → WritesObject env documents part s path o →
      WritesKind s path o
  | list {t : Schema} {o : Output} : s.kind? = some .array → s.items = some t →
      part t (path.push "_[]") o → WritesKind s path (.written "[]" ++ o)
  | withoutItems : s.kind? = some .array → s.items = none →
      WritesKind s path
        (.flawed [⟨path.text, .missingItems⟩] ++ .written (placeholder "array without items"))
  | composition {members : List Output} : s.kind? = some .untyped → s.allOf ≠ [] →
      List.Forall₂ (WritesMember part path) s.allOf.zipIdx members →
      WritesKind s path (.written "struct \x7b\n" ++ (.join members ++ .written "\x7d"))
  | snowflake : s.kind? = some .string → s.keywords.format = .text "snowflake" →
      WritesKind s path (.written (env.snowflakes.guess path))
  | time : s.kind? = some .string → s.keywords.format = .text "date-time" →
      WritesKind s path (.need (.text "time") ++ .written "time.Time")
  | text : s.kind? = some .string → WritesKind s path (.written "string")
  | textConstants {o : Output} : s.IsConstantSet → s.kind? = some .string →
      WritesConstants env s path "string" o → WritesKind s path o
  | integer {base : String} : s.kind? = some .integer → IntegerBase env s (.text base) →
      WritesKind s path (.written base)
  | integerConstants {base : Json} {o : Output} : s.IsConstantSet → s.kind? = some .integer →
      IntegerBase env s base → WritesConstants env s path base.display o → WritesKind s path o
  | number {type : String} : s.kind? = some .number → numberType s.keywords.format = .ok type →
      WritesKind s path (.written type)
  | boolean : s.kind? = some .boolean → WritesKind s path (.written "bool")
  | null {package : Json.Key} : s.kind? = some .null →
      env.options.optionImportPath.asKey = .ok package →
      WritesKind s path (.need package ++ .written "option.Null")
  | beside {index : Nat} {t : Schema} {o : Output} : s.IsChoice →
      env.branchBesideNull s.alternatives = .ok (some index) → s.alternatives[index]? = some t →
      part t (path.push (s.marker ++ "[" ++ toString index ++ "]")) o →
      WritesKind s path (o.mapText fun type ↦
        if s.keywords.nullable then Text.removeBeginning type "*"
        else "*" ++ Text.removeBeginning type "*")
  | union {o : Output} : s.IsChoice → env.branchBesideNull s.alternatives = .ok none →
      WritesUnion env part path.exportedName s.alternatives path o →
      WritesKind s path ((o.mapText fun _ ↦ "") ++
        (.declaration path.exportedName o.text ++ .written path.exportedName))
  | negation : s.kind? = some .untyped → s.alternatives = [] →
      WritesKind s path (.flawed [⟨path.text, .negation⟩] ++ .written (placeholder "not"))
  | unknown {remark : String} : (s.kind? = some .untyped → s.alternatives = []) →
      remark = "unknown" ∨ remark = " ".intercalate s.types →
      WritesKind s path (.written (placeholder remark))

/-- What is written for a node. -/
inductive WritesNode (s : Schema) (path : Path) : Output → Prop
  | invalid {e : InvalidTypes} : PrimaryType.ofTypes s.types = .error e →
      WritesNode s path (.flawed [⟨path.text, .invalidTypes e⟩] ++
        .written (placeholder ("invalid type " ++ Text.quotedList s.types)))
  | pointer {type : PrimaryType} {o : Output} : PrimaryType.ofTypes s.types = .ok type →
      (type.nullable || s.keywords.nullable) = true → WritesKind env documents part s path o →
      WritesNode s path (.written "*" ++ o)
  | plain {type : PrimaryType} {o : Output} : PrimaryType.ofTypes s.types = .ok type →
      (type.nullable || s.keywords.nullable) = false → WritesKind env documents part s path o →
      WritesNode s path o

/-- What is written for a schema below another one: a reference by name, anything else as a node. -/
inductive WritesPart (node : Output → Prop) (s : Schema) : Output → Prop
  | node {o : Output} : s.ref = none → node o → WritesPart node s o
  | name {ref : Json} {name : String} : s.ref = some ref → s.isSchemaReference = .ok true →
      s.refName = .ok name → WritesPart node s (.written (env.typeName name))
  | response {ref : Json} : s.ref = some ref → s.refNamespace = .ok responsesNamespace →
      WritesPart node s (.written (placeholder ref.display))
  | unknown {ref : Json} {issue : Issue} : s.ref = some ref → s.isSchemaReference = .ok false →
      WritesPart node s (.flawed [issue] ++ .written (placeholder ref.display))

variable (node : Schema → Path → Output → Prop)

/-- What is written for a schema at a root: what it leads to, as a node. -/
inductive WritesRoot (s : Schema) (path : Path) : Output → Prop
  | node {t : Schema} {o : Output} : env.document.Leads s t → node t path o → WritesRoot s path o
  | unknown {ref : Json} {issue : Issue} : s.ref = some ref →
      WritesRoot s path (.flawed [issue] ++ .written (placeholder ref.display))

/-- What is written for an entry of the document: a union as its own block, anything else as a named
type. -/
inductive WritesNamed (name : String) (s : Schema) : Output → Prop
  | union {t : Schema} {branches : List Schema} {o : Output} : env.document.Leads s t →
      WritesUnion env (fun u p o ↦ u ∈ t.children ∧ WritesPart env (node u p) u o)
        (Identifier.ofMixedCase name) branches (.ofRoot name) o →
      WritesNamed name s o
  | type {o : Output} : WritesRoot env node s (.ofRoot name) o →
      WritesNamed name s
        (o.mapText fun type ↦ "type " ++ Identifier.ofMixedCase name ++ " " ++ type ++ "\n\n")

end Schema

/-! ## The rules for nodes keep to that -/

/-- What is found in tables may be found, and no more comes of a search. -/
def Environment.Documents (env : Environment) (keeps : Memory → Prop)
    (documents : List (String × FieldInfo) → Prop) : Prop :=
  ∀ path s, Emit.Ensures keeps (env.documentedFields path s)
    fun documented o ↦ documents documented ∧ o = .nothing

/-- What may be found is settled by what a search for tables finds. -/
theorem Environment.documents_of {env : Environment} {keeps : Memory → Prop}
    {documents : List (String × FieldInfo) → Prop} (hnone : documents [])
    (hsearch : env.options.docComments = true → ∀ memory path s found, keeps memory →
      env.correlator.searchFields env.document.deref memory path s = .ok found →
      keeps (found.learnt ++ memory) ∧
        ∀ fields, bestFields found.candidates = .ok fields → documents fields) :
    env.Documents keeps documents := by
  intro path s
  unfold documentedFields
  split
  · next hdocs =>
    have hfound : Emit.Ensures keeps
        (Emit.search fun memory ↦ env.correlator.searchFields env.document.deref memory path s)
        fun candidates o ↦
          (∀ fields, bestFields candidates = .ok fields → documents fields) ∧ o = .nothing := by
      intro memory candidates hmemory hresult
      cases hfind : env.correlator.searchFields env.document.deref memory path s with
      | error e =>
        rw [Emit.search, hfind] at hresult
        cases hresult
      | ok found =>
        obtain ⟨hlater, hfields⟩ := hsearch hdocs memory path s found hmemory hfind
        rw [Emit.search_apply_of_ok hfind] at hresult ⊢
        cases hresult
        refine ⟨hlater, hfields, Output.ext (Act.text_map_tell _) ?_ ?_ ?_⟩ <;>
        rw [Emission.output, Emission.events, Act.events_map_tell] <;>
        exact Emit.filterMap_searchEvents (fun _ ↦ rfl) (fun _ _ ↦ rfl) found
    refine hfound.bind ?_
    rintro candidates _ ⟨hfields, rfl⟩
    cases hbest : bestFields candidates with
    | ok fields => exact .done ⟨hfields fields hbest, rfl⟩
    | error e => exact fun _ _ _ hresult ↦ by cases hresult
  · exact .done ⟨hnone, rfl⟩

/-- Nothing is asked of what is found in tables. -/
theorem Environment.documents_true (env : Environment) :
    env.Documents (fun _ ↦ True) fun _ ↦ True :=
  documents_of trivial fun _ _ _ _ _ _ _ ↦ ⟨trivial, fun _ _ ↦ trivial⟩

namespace TypeExpression

open Emit Schema

variable {env : Environment} {keeps : Memory → Prop}
  {documents : List (String × FieldInfo) → Prop} {part : Schema → Path → Output → Prop}

theorem ensures_requireOption_bind {β : Type} {f : Unit → Emit β} {q : β → Output → Prop}
    (h : ∀ package, env.options.optionImportPath.asKey = .ok package →
      Ensures keeps (f ()) fun b o ↦ q b (.need package ++ o)) :
    Ensures keeps (env.requireOption >>= f) q := by
  have hrequire : Ensures keeps env.requireOption fun _ o ↦
      ∃ package, env.options.optionImportPath.asKey = .ok package ∧ o = .need package :=
    .lift_bind fun package hpackage ↦
      fun _ _ hmemory _ ↦ ⟨hmemory, package, hpackage, rfl⟩
  refine hrequire.bind ?_
  rintro _ _ ⟨package, hpackage, rfl⟩
  exact h package hpackage

/-- The issues of the branches that nothing comes of, numbered from `index`. -/
def unvalued {α : Type} (path : Path) (index : Nat) : List (Option α) → List Issue
  | [] => []
  | some _ :: rest => unvalued path (index + 1) rest
  | none :: rest => ⟨path.text, .branchWithoutConst index⟩ :: unvalued path (index + 1) rest

theorem ensures_unknown (types : List String) (path : Path) :
    Ensures keeps (unknown types path) fun _ o ↦
      ∃ remark, (remark = "unknown" ∨ remark = " ".intercalate types) ∧
        o = .written (placeholder remark) := by
  refine .note_bind (.write ⟨_, ?_, rfl⟩)
  split
  · exact .inl rfl
  · exact .inr rfl

theorem ensures_partType {s : Schema} {body : Path → Emit Unit} {path : Path} {p : Output → Prop}
    (hbody : Ensures keeps (body path) fun _ ↦ p) :
    Ensures keeps (partType env s body path) fun _ ↦ WritesPart env p s := by
  refine .note_bind ?_
  split
  · next ref href =>
    refine .lift_bind fun space hspace ↦ ?_
    have hreference : s.isSchemaReference = .ok (space == schemasNamespace) := by
      rw [Schema.isSchemaReference, hspace]
      rfl
    split
    · next hschemas =>
      rw [hschemas] at hreference
      exact .lift_bind fun name hname ↦ .mention (.name href hreference hname)
    · next hschemas =>
      rw [Bool.not_eq_true] at hschemas
      rw [hschemas] at hreference
      split
      · next hresponses =>
        rw [beq_iff_eq] at hresponses
        exact .note_bind (.write (.response href (hresponses ▸ hspace)))
      · exact .issue_bind (.write (.unknown href hreference))
  · next href => exact hbody.mono fun _ _ ho ↦ .node href ho

theorem ensures_fieldComment (documented : List (String × FieldInfo)) (name identifier : String) :
    Ensures keeps (fieldComment documented name identifier) fun _ o ↦
      ∃ comment, WritesComment documented name identifier comment ∧ o = .written comment := by
  unfold fieldComment
  split
  · exact .done ⟨"", .none, rfl⟩
  · next info hinfo =>
    split
    · exact .done ⟨"", .none, rfl⟩
    · exact .lift_bind fun description hdescription ↦
        .write ⟨_, .some hinfo hdescription, rfl⟩

theorem ensures_fieldLine {s t : Schema} {documented : List (String × FieldInfo)} {path : Path}
    {name : String} {x : Part} (hpart : Ensures keeps (x.write (path.push name)) fun _ ↦
      part t (path.push name)) :
    Ensures keeps (fieldLine env s.keywords documented path name x) fun _ ↦
      WritesField env part s documented path (name, t) := by
  unfold fieldLine
  dsimp only
  split
  · next hempty => exact fun _ _ hmemory _ ↦ ⟨hmemory, .unnamed hempty⟩
  next husable =>
  rw [Bool.not_eq_true] at husable
  refine (ensures_fieldComment documented name _).bind ?_
  rintro _ _ ⟨comment, hcomment, rfl⟩
  refine hpart.capture.bind ?_
  rintro _ _ ⟨inner, hinner, rfl, rfl⟩
  split
  · next hrequired =>
    refine .write ?_
    rw [Output.mapText_append_written inner fun type ↦
      "\t" ++ Identifier.ofSnakeCase name ++ " " ++ type ++ " `json:\"" ++ name ++ "\"`\n"]
    exact .required husable hrequired hcomment hinner
  · next hoptional =>
    refine ensures_requireOption_bind fun package hpackage ↦ .write ?_
    rw [Bool.not_eq_true] at hoptional
    have hfield := WritesField.optional husable hoptional hcomment hinner hpackage
    rwa [← Output.mapText_append_need] at hfield

/-- What is emitted for the schemas right below a node is as said. -/
def EnsuresChildren (env : Environment) (keeps : Memory → Prop)
    (part : Schema → Path → Output → Prop) (s : Schema) : Prop :=
  ∀ t ∈ s.children, ∀ path, Ensures keeps (emitPart env t path) fun _ ↦ part t path

/-- The output of the emission of a schema below another one, whatever is remembered. -/
def Leaves (env : Environment) (t : Schema) (path : Path) (o : Output) : Prop :=
  ∃ memory, (emitPart env t path memory).result = .ok () ∧ (emitPart env t path memory).output = o

theorem ensuresChildren_leaves (env : Environment) (s : Schema) :
    EnsuresChildren env (fun _ ↦ True) (Leaves env) s :=
  fun _ _ _ memory _ _ hended ↦ ⟨trivial, memory, hended, rfl⟩

variable {s : Schema} {path : Path} (hparts : EnsuresChildren env keeps part s)

include hparts

theorem ensures_objectType (hdocs : env.Documents keeps documents) :
    Ensures keeps (objectType env s (s.parts env) path) fun _ ↦
      WritesObject env documents part s path := by
  refine (hdocs path s).bind ?_
  rintro documented _ ⟨hdocumented, rfl⟩
  have hsorted : (s.parts env).sortedProperties =
      s.sortedProperties.map fun p ↦ (p.1, TypeExpression.part env p.2 (emit env p.2)) := by
    rw [Parts.sortedProperties, parts, namedParts_eq_map, sorted_map]
    rfl
  have hfields : ∀ p ∈ s.sortedProperties, Ensures keeps
      (fieldLine env s.keywords documented path p.1
        (TypeExpression.part env p.2 (emit env p.2))) fun _ ↦
      WritesField env part s documented path p := by
    intro p hp
    have hchild := mem_children_of_mem_properties ((sortedProperties_perm s).mem_iff.mp hp)
    exact ensures_fieldLine (hparts p.2 hchild _)
  have heach := Ensures.each hfields
  refine .write_bind ?_
  rw [hsorted, List.map_map, Function.comp_def]
  refine heach.bind ?_
  rintro _ _ ⟨fields, hfields, rfl⟩
  exact .write ⟨documented, fields, hdocumented, hfields, rfl⟩

theorem ensures_listType (hkind : s.kind? = some .array) :
    Ensures keeps (listType (s.parts env) path) fun _ ↦
      WritesKind env documents part s path := by
  unfold listType
  rw [parts, optionalPart_eq_map]
  cases hitems : s.items with
  | none => exact .issue_bind (.write (.withoutItems hkind hitems))
  | some t =>
    have hitem := hparts t (mem_children_of_items_eq_some hitems) (path.push "_[]")
    refine .write_bind ((hitem.capture_write id).mono ?_)
    rintro _ _ ⟨inner, hinner, rfl⟩
    exact .list hkind hitems hinner

theorem ensures_compositionType (hkind : s.kind? = some .untyped) (hallOf : s.allOf ≠ []) :
    Ensures keeps (compositionType (s.parts env) path) fun _ ↦
      WritesKind env documents part s path := by
  unfold compositionType
  rw [List.mapIdx_eq_zipIdx_map, parts, branchParts_eq_map, List.zipIdx_map, List.map_map]
  have hmembers : ∀ member ∈ s.allOf.zipIdx, Ensures keeps
      (Emit.capture
          (emitPart env member.1 (path.push ("_allOf[" ++ toString member.2 ++ "]"))) >>=
        fun type ↦ Emit.write ("\t" ++ type ++ "\n"))
      fun _ ↦ WritesMember part path member := by
    intro member hmember
    have hchild := mem_children_of_mem_allOf (List.fst_mem_of_mem_zipIdx hmember)
    exact (hparts member.1 hchild _).capture_write _
  refine .write_bind ((Ensures.each hmembers).bind ?_)
  rintro _ _ ⟨members, hmembers, rfl⟩
  exact .write (.composition hkind hallOf hmembers)

omit hparts in
/-- Every branch of a set is gone through, and those without a value are reported. -/
theorem ensures_yields (type : String) (path : Path) (index : Nat) (branches : List Schema) :
    Ensures keeps (constants env type path index branches) fun constants o ↦
      ∃ yields, List.Forall₂ (YieldsConstant env type) branches yields ∧
        constants = yields.reduceOption ∧ o = .flawed (unvalued path index yields) := by
  induction branches generalizing index with
  | nil => exact .done ⟨[], .nil, rfl, rfl⟩
  | cons branch rest ih =>
    refine .lift_bind fun node hnode ↦ ?_
    split
    · next hvalue =>
      refine .issue_bind ((ih _).mono ?_)
      rintro _ _ ⟨yields, hyields, rfl, rfl⟩
      exact ⟨none :: yields, .cons (.nothing hnode hvalue) hyields, rfl, rfl⟩
    · next value hvalue =>
      refine .lift_bind fun c hc ↦ (ih _).bind ?_
      rintro _ _ ⟨yields, hyields, rfl, rfl⟩
      refine .done ⟨some c :: yields, .cons (.constant hnode hvalue hc) hyields, rfl, ?_⟩
      exact Output.append_nothing _

omit hparts in
theorem ensures_constants (type : String) (path : Path) (index : Nat) (branches : List Schema) :
    Ensures keeps (constants env type path index branches) fun constants o ↦
      AreConstants env type branches constants ∧ ∃ issues, o = .flawed issues := by
  refine (ensures_yields type path index branches).mono ?_
  rintro _ _ ⟨yields, hyields, rfl, rfl⟩
  refine ⟨fun c hc ↦ ?_, _, rfl⟩
  have hsources : ∀ yield ∈ yields, ∀ c ∈ yield, ∃ branch ∈ branches, ∃ node value,
      env.document.deref branch = .ok node ∧ node.keywords.const = some value ∧
        constant type node.keywords value = .ok c := by
    refine forall_mem_of_forall₂ hyields fun branch hbranch yield hyield c hc ↦ ?_
    cases hyield with
    | constant hnode hvalue hconstant =>
      cases hc
      exact ⟨branch, hbranch, _, _, hnode, hvalue, hconstant⟩
    | nothing => cases hc
  exact hsources (some c) (List.reduceOption_mem_iff.mp hc) c rfl

omit hparts in
theorem ensures_constantSet (base : String) :
    Ensures keeps (constantSet env base s.oneOf path) fun _ ↦ WritesConstants env s path base := by
  refine (ensures_constants _ _ _ _).bind ?_
  rintro constants _ ⟨hconstants, issues, rfl⟩
  split
  · next hroot => exact .write (.root hroot hconstants)
  · next hroot =>
    rw [Bool.not_eq_true] at hroot
    exact .hoist (.hoisted hroot hconstants)

omit hparts in
theorem ensures_textType (hkind : s.kind? = some .string) :
    Ensures keeps (textType env s path) fun _ ↦ WritesKind env documents part s path := by
  unfold textType
  split
  · next hformat =>
    have hnotes : ∀ record ∈ env.snowflakes.guessLog path,
        Ensures keeps (Emit.tell (.note record)) fun _ o ↦ o = .nothing :=
      fun record _ _ _ hmemory _ ↦ ⟨hmemory, rfl⟩
    refine (Ensures.each hnotes).bind ?_
    rintro _ _ ⟨outputs, houtputs, rfl⟩
    rw [Output.join_eq_nothing houtputs]
    exact .write (.snowflake hkind hformat)
  · next hformat => exact .require_bind (.write (.time hkind hformat))
  · next hsnowflake htime =>
    split
    · exact .write (.text hkind)
    · next honeOf =>
      refine (ensures_constantSet "string").mono fun _ o ho ↦ .textConstants ?_ hkind ho
      exact .text hkind hsnowflake htime (by simpa using honeOf)

omit hparts in
theorem ensures_integerType (hkind : s.kind? = some .integer) :
    Ensures keeps (integerType env s path) fun _ ↦ WritesKind env documents part s path := by
  refine .lift_bind fun name hname ↦ .lift_bind fun isEnum _ ↦ ?_
  have hwarning : Ensures keeps (Emit.whenever isEnum (Emit.note .warning .emission
      (path.text ++ " is an integer but should be an enum"))) fun _ o ↦ o = .nothing :=
    .whenever (fun _ _ _ hmemory _ ↦ ⟨hmemory, rfl⟩) fun _ ↦ rfl
  have hmention : Ensures keeps (Emit.whenever (!name.isEmpty) (Emit.tell (.mention name)))
      fun _ o ↦ o = .nothing :=
    .whenever (fun _ _ _ hmemory _ ↦ ⟨hmemory, rfl⟩) fun _ ↦ rfl
  refine hwarning.bind ?_
  rintro _ _ rfl
  refine hmention.bind ?_
  rintro _ _ rfl
  dsimp only [Output.nothing_append]
  have hbase : IntegerBase env s (if !name.isEmpty then .text name
      else if s.keywords.format.isVoid then .text "int" else s.keywords.format) := by
    split
    · next hne =>
      obtain ⟨member, hmem, href, ref, hrefName, rfl⟩ :=
        exists_of_integerName_eq_ok hname (by simpa using hne)
      exact .name hmem href hrefName
    split
    · next hvoid => exact .plain hvoid
    · next hvoid => exact .format (by simpa using hvoid)
  generalize (if !name.isEmpty then Json.text name
      else if s.keywords.format.isVoid then .text "int" else s.keywords.format) = base at hbase ⊢
  split
  · unfold writeText
    split
    · exact .write (.integer hkind hbase)
    · exact fun _ _ _ hresult ↦ by cases hresult
  · next honeOf =>
    refine (ensures_constantSet base.display).mono fun _ o ho ↦ .integerConstants ?_ hkind hbase ho
    exact .integer hkind (by simpa using honeOf)

/-- A union is written from its branches. -/
theorem ensures_namedUnion (union : String) {branches : List Schema}
    (hbranches : ∀ branch ∈ branches, branch ∈ s.children) :
    Ensures keeps (namedUnion env union (branchParts env branches) path) fun _ ↦
      WritesUnion env part union branches path := by
  unfold namedUnion
  rw [map_schema_branchParts]
  refine .note_bind (.lift_bind fun names hnames ↦ .write_bind ?_)
  rw [branchParts_eq_map, List.zip_map_right, List.map_map]
  have hvariants : ∀ p ∈ names.zip branches, Ensures keeps
      (declareVariant path p.1 (TypeExpression.part env p.2 (emit env p.2))) fun _ ↦
      WritesVariant part path p := by
    intro p hp
    refine .lift_bind fun isReference href ↦ ?_
    split
    · next hreference => exact .done (.elsewhere (hreference ▸ href))
    · next hinline =>
      rw [Bool.not_eq_true] at hinline
      have hbranch := hparts p.2 (hbranches p.2 (List.of_mem_zip hp).2) (path.push p.1)
      refine hbranch.capture.bind ?_
      rintro _ _ ⟨inner, hinner, rfl, rfl⟩
      exact .register (.inline (hinline ▸ href) hinner)
  refine (Ensures.each hvariants).mono ?_
  rintro _ _ ⟨variants, hvariants, rfl⟩
  exact .intro hnames hvariants

theorem ensures_choiceType (hchoice : s.IsChoice) :
    Ensures keeps
      (unionType env s.keywords.nullable s.marker (branchParts env s.alternatives) path)
      fun _ ↦ WritesKind env documents part s path := by
  unfold unionType
  rw [map_schema_branchParts]
  refine .lift_bind fun beside hbeside ↦ ?_
  cases beside with
  | none =>
    have hunion : Ensures keeps
        (namedUnion env path.exportedName (branchParts env s.alternatives) path) fun _ ↦
        WritesUnion env part path.exportedName s.alternatives path :=
      ensures_namedUnion hparts _ fun branch hbranch ↦ mem_children_of_mem_alternatives hbranch
    refine hunion.capture.bind ?_
    rintro _ _ ⟨inner, hinner, rfl, rfl⟩
    exact .hoist (.union hchoice hbeside hinner)
  | some index =>
    have hlt := lt_length_of_branchBesideNull hbeside
    have ht : s.alternatives[index]? = some s.alternatives[index] := List.getElem?_eq_getElem hlt
    have hmem : s.alternatives[index] ∈ s.children :=
      mem_children_of_mem_alternatives (List.mem_of_getElem? ht)
    rw [branchParts_eq_map, Option.bind_some, List.getElem?_map, ht]
    refine (hparts _ hmem _).capture_write _ |>.mono ?_
    rintro _ _ ⟨inner, hinner, rfl⟩
    exact .beside hchoice hbeside ht hinner

variable (hdocs : env.Documents keeps documents)

include hdocs

theorem ensures_untypedType (hkind : s.kind? = some .untyped) :
    Ensures keeps (untypedType env s (s.parts env) path) fun _ ↦
      WritesKind env documents part s path := by
  have hchoice : s.IsChoice → Ensures keeps
      (unionType env s.keywords.nullable s.marker (branchParts env s.alternatives) path) fun _ ↦
      WritesKind env documents part s path := ensures_choiceType hparts
  unfold untypedType
  simp only [parts, isEmpty_branchParts, Bool.not_eq_true', List.isEmpty_eq_false_iff]
  split
  · next hallOf => exact ensures_compositionType hparts hkind hallOf
  next hallOf =>
  split
  · next honeOf =>
    have halternatives := alternatives_of_oneOf_ne_nil honeOf
    rw [halternatives, marker, if_neg (by simpa using honeOf)] at hchoice
    exact hchoice ⟨hkind, not_not.mp hallOf, halternatives ▸ honeOf⟩
  next honeOf =>
  have halternatives := alternatives_of_oneOf_eq_nil (not_not.mp honeOf)
  split
  · next hanyOf =>
    rw [halternatives, marker, if_pos (by simpa using honeOf)] at hchoice
    exact hchoice ⟨hkind, not_not.mp hallOf, halternatives ▸ hanyOf⟩
  next hanyOf =>
  rw [not_not.mp hanyOf] at halternatives
  split
  · exact .issue_bind (.write (.negation hkind halternatives))
  next hnegated =>
  split
  · refine (ensures_objectType hparts hdocs).mono fun _ o ho ↦ .object ?_ ho
    exact .untyped hkind (not_not.mp hallOf) halternatives (by simpa using hnegated)
  · refine (ensures_unknown s.types path).mono ?_
    rintro _ _ ⟨remark, hremark, rfl⟩
    exact .unknown (fun _ ↦ halternatives) hremark

theorem ensures_kindType :
    Ensures keeps (kindType env s.kind? s (s.parts env) path) fun _ ↦
      WritesKind env documents part s path := by
  unfold kindType
  split
  · next hkind =>
    exact (ensures_objectType hparts hdocs).mono fun _ o ho ↦ .object (.declared hkind) ho
  · next hkind => exact ensures_listType hparts hkind
  · next hkind => exact ensures_textType hkind
  · next hkind => exact ensures_integerType hkind
  · next hkind => exact .lift_bind fun type htype ↦ .write (.number hkind htype)
  · next hkind => exact .write (.boolean hkind)
  · next hkind =>
    refine ensures_requireOption_bind fun package hpackage ↦ ?_
    exact .write (.null hkind hpackage)
  · next hkind => exact ensures_untypedType hparts hdocs hkind
  · next hkind =>
    refine (ensures_unknown s.types path).mono ?_
    rintro _ _ ⟨remark, hremark, rfl⟩
    exact .unknown (fun huntyped ↦ by rw [hkind] at huntyped; cases huntyped) hremark

theorem ensures_nodeType :
    Ensures keeps (nodeType env s (s.parts env) path) fun _ ↦
      WritesNode env documents part s path := by
  unfold nodeType
  split
  · next e htypes => exact .issue_bind (.write (.invalid htypes))
  · next type htype =>
    rw [← kind?_eq_of_ofTypes_eq_ok htype]
    have hkind : Ensures keeps (kindType env s.kind? s (s.parts env) path) fun _ ↦
        WritesKind env documents part s path := ensures_kindType hparts hdocs
    cases hpointer : type.nullable || s.keywords.nullable with
    | true => exact .write_bind (hkind.mono fun _ _ ho ↦ .pointer htype hpointer ho)
    | false => exact hkind.mono fun _ _ ho ↦ .plain htype hpointer ho

end TypeExpression

/-! ## Schemas -/

namespace Schema

open Emit TypeExpression

variable {env : Environment} {keeps : Memory → Prop}
  {documents : List (String × FieldInfo) → Prop} {node : Schema → Path → Output → Prop}
  (hdocs : env.Documents keeps documents)
  (hnode : ∀ s path o, WritesNode env documents
    (fun t p o ↦ t ∈ s.children ∧ WritesPart env (node t p) t o) s path o → node s path o)

include hdocs hnode

/-- **What every node has if the schemas right below it have it holds of every schema.** -/
theorem ensures_emit (s : Schema) (path : Path) :
    Ensures keeps (emit env s path) fun _ ↦ node s path := by
  induction s using children_induction generalizing path with
  | step s ih =>
    rw [emit_eq]
    have hparts : EnsuresChildren env keeps
        (fun t p o ↦ t ∈ s.children ∧ WritesPart env (node t p) t o) s := fun t ht p ↦
      (ensures_partType (ih t ht p)).mono fun _ _ ho ↦ ⟨ht, ho⟩
    exact (ensures_nodeType hparts hdocs).mono fun _ o ho ↦ hnode s path o ho

theorem ensures_emitPart (s : Schema) (path : Path) :
    Ensures keeps (emitPart env s path) fun _ ↦ WritesPart env (node s path) s :=
  ensures_partType (ensures_emit hdocs hnode s path)

theorem ensures_emitRoot (s : Schema) (path : Path) :
    Ensures keeps (emitRoot env s path) fun _ ↦ WritesRoot env node s path := by
  refine .note_bind ?_
  split
  · exact (ensures_emit hdocs hnode s path).mono fun _ _ ho ↦ .node (.refl s) ho
  · next ref href =>
    refine .lift_bind fun target htarget ↦ ?_
    split
    · next target =>
      have hleads : env.document.Leads s target := .step href htarget (.refl _)
      exact (ensures_emit hdocs hnode target path).mono fun _ _ ho ↦ .node hleads ho
    · exact .issue_bind (.write (.unknown href))

/-- The declaration of an entry is made of what is written for the nodes that it leads to. -/
theorem ensures_emitNamed (name : String) (s : Schema) :
    Ensures keeps (emitNamed env name s) fun _ ↦ WritesNamed env node name s := by
  refine .lift_bind fun isAlias _ ↦ .lift_bind fun t ht ↦ .lift_bind fun branches hbranches ↦ ?_
  split
  · next branches =>
    have hparts : EnsuresChildren env keeps
        (fun u p o ↦ u ∈ t.children ∧ WritesPart env (node u p) u o) t := fun u hu p ↦
      (ensures_emitPart hdocs hnode u p).mono fun _ _ ho ↦ ⟨hu, ho⟩
    refine (ensures_namedUnion hparts _ ?_).mono fun _ _ ho ↦
      .union (Document.leads_of_ite_deref_eq_ok ht) ho
    exact fun branch hbranch ↦ mem_children_of_mem_unionBranches hbranches hbranch
  · refine .write_bind ((ensures_emitRoot hdocs hnode s (.ofRoot name)).bind fun _ o ho ↦ .write ?_)
    rw [Output.written_append_append_written]
    exact .type ho

end Schema

end SchemaTypes
