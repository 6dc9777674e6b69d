import SchemaTypes.Proofs.Emission.Declares
import SchemaTypes.Proofs.Emission.Places
import SchemaTypes.Proofs.Emission.Reliable
import SchemaTypes.Proofs.Run.Collection

/-!
# Closed properties of emissions

The emission of a schema is put together from few pieces: texts that are written, events that are
told, values that are gone on with, parts that are captured. A property of emissions that the pieces
have and that putting together keeps is therefore a property of the emission of every schema. The
structure `Emit.Closed` lists what has to be checked for that, and `Schema.emit_closed` is the one
passage through the rules for nodes that all such properties share.

Some pieces are not free. The name of a schema is mentioned only where a reference names it, so a
property may ask something of the names that references lead to. What is hoisted under a name is a
declaration of that name, and it is hoisted at a place of the emission, so that a property may ask
something of the names that go with the places. Tables are searched only when documentation comments
are wanted, so a property need not stand that otherwise. And an emission ends early only on a value
of an unexpected type, so a property need not stand that either where the environment is sound and
schemas are textual.
-/

namespace SchemaTypes

open Declaration

namespace Emit

variable {α β : Type}

theorem bind_apply_of_ok {x : Emit α} {memory later : Correlator.Memory} {acts : List Act} {a : α}
    (h : x memory = ⟨acts, later, .ok a⟩) (f : α → Emit β) :
    (x >>= f) memory =
      ⟨acts ++ (f a later).acts, (f a later).memory, (f a later).result⟩ := by
  change andThen x f memory = _
  rw [andThen, h]

theorem bind_apply_of_error {x : Emit α} {memory later : Correlator.Memory} {acts : List Act}
    {e : Mismatch} (h : x memory = ⟨acts, later, .error e⟩) (f : α → Emit β) :
    (x >>= f) memory = ⟨acts, later, .error e⟩ := by
  change andThen x f memory = _
  rw [andThen, h]

/-- What a search for tables tells of what it has found. -/
def searchEvents (found : Correlator.Finding) : List Event :=
  found.log.map .note ++ found.learnt.map fun (shape, candidates) ↦ .learn shape candidates

theorem mem_searchEvents {found : Correlator.Finding} {event : Event} :
    event ∈ searchEvents found ↔ (∃ record ∈ found.log, .note record = event) ∨
      ∃ learnt ∈ found.learnt, .learn learnt.1 learnt.2 = event := by
  rw [searchEvents, List.mem_append, List.mem_map, List.mem_map]

/-- What is looked for in what a search tells is not there, unless in notes and in what is learnt.
-/
theorem filterMap_searchEvents {ι : Type} {find : Event → Option ι}
    (hnote : ∀ record, find (.note record) = none)
    (hlearn : ∀ shape candidates, find (.learn shape candidates) = none)
    (found : Correlator.Finding) : (searchEvents found).filterMap find = [] := by
  refine List.filterMap_eq_nil_iff.mpr fun event hevent ↦ ?_
  obtain ⟨record, -, rfl⟩ | ⟨learnt, -, rfl⟩ := mem_searchEvents.mp hevent
  · exact hnote record
  · exact hlearn learnt.1 learnt.2

theorem search_apply_of_ok {find : Correlator.Memory → Except Mismatch Correlator.Finding}
    {memory : Correlator.Memory} {found : Correlator.Finding} (h : find memory = .ok found) :
    search find memory =
      ⟨(searchEvents found).map .tell, found.learnt ++ memory, .ok found.candidates⟩ := by
  rw [search, h]
  rfl

@[simp] theorem lift_ok_bind (a : α) (f : α → Emit β) : (lift (.ok a) >>= f) = f a := rfl

@[simp] theorem lift_error_bind (e : Mismatch) (f : α → Emit β) :
    (lift (.error e) >>= f) = lift (.error e) := rfl

/-- What is captured is the text of an emission that ends of itself. -/
theorem of_result_capture_eq_ok {x : Emit Unit} {memory : Correlator.Memory} {text : String}
    (h : (capture x memory).result = .ok text) :
    (x memory).result = .ok () ∧ text = (x memory).text := by
  rw [capture] at h
  cases hx : (x memory).result with
  | error e =>
    rw [hx] at h
    cases h
  | ok u =>
    rw [hx] at h
    cases h
    exact ⟨rfl, rfl⟩

end Emit

/-- Events that a rule tells by itself: notes, needed packages, and what is wrong with the schema at
hand. A package has a text for its path, unless values of unexpected types are met. -/
inductive Event.Plain (mayFail : Prop) : Event → Prop
  | note (record : Log.Record) : Plain mayFail (.note record)
  | require (path : Json.Key) : mayFail ∨ path.IsText → Plain mayFail (.require path)
  | report (issue : Issue) : issue.cause.kind ≠ .general → Plain mayFail (.report issue)

section

variable {mayFail : Prop} {event : Event}

theorem Event.Plain.mention?_eq_none (h : event.Plain mayFail) : event.mention? = none := by
  cases h <;> rfl

theorem Event.Plain.registration?_eq_none (h : event.Plain mayFail) :
    event.registration? = none := by
  cases h <;> rfl

end

namespace Emit

variable {α β : Type}

/-- A property of emissions that the pieces of the emission of a schema have, and that putting them
together keeps. -/
structure Closed (mayMention mayRegister : String → Prop) (maySearch mayFail : Prop)
    (Q : {α : Type} → Emit α → Prop) : Prop where
  done {α : Type} (a : α) : Q (Emit.done a)
  /-- Only what an emission can result in is gone on with. -/
  bindResult {α β : Type} {x : Emit α} {f : α → Emit β} :
    Q x → (∀ a memory, (x memory).result = .ok a → Q (f a)) → Q (x >>= f)
  fail {α : Type} (e : Mismatch) : mayFail → Q (lift (.error e) : Emit α)
  write (text : String) : Q (Emit.write text)
  tell (event : Event) : event.Plain mayFail → Q (Emit.tell event)
  mention (name : String) : mayMention name → Q (Emit.tell (.mention name))
  register (name text : String) : mayRegister name → Declares text name →
    Q (Emit.tell (.register name text))
  hoist (name text : String) : mayRegister name → Declares text name → Q (Emit.hoist name text)
  capture {x : Emit Unit} : Q x → Q (Emit.capture x)
  search (find : Correlator.Memory → Except Mismatch Correlator.Finding) :
    maySearch → Q (Emit.search find)

namespace Closed

variable {mayMention mayRegister : String → Prop} {maySearch mayFail : Prop}
  {Q : {α : Type} → Emit α → Prop} (h : Closed mayMention mayRegister maySearch mayFail Q)

include h

/-- Two closed properties together are one. -/
theorem and {Q' : {α : Type} → Emit α → Prop}
    (h' : Closed mayMention mayRegister maySearch mayFail Q') :
    Closed mayMention mayRegister maySearch mayFail (fun {α} (x : Emit α) ↦ Q x ∧ Q' x) where
  done a := ⟨h.done a, h'.done a⟩
  bindResult hx hf := ⟨h.bindResult hx.1 fun a memory hresult ↦ (hf a memory hresult).1,
    h'.bindResult hx.2 fun a memory hresult ↦ (hf a memory hresult).2⟩
  fail e hfail := ⟨h.fail e hfail, h'.fail e hfail⟩
  write text := ⟨h.write text, h'.write text⟩
  tell event hplain := ⟨h.tell event hplain, h'.tell event hplain⟩
  mention name hname := ⟨h.mention name hname, h'.mention name hname⟩
  register name text hname hdeclares :=
    ⟨h.register name text hname hdeclares, h'.register name text hname hdeclares⟩
  hoist name text hname hdeclares :=
    ⟨h.hoist name text hname hdeclares, h'.hoist name text hname hdeclares⟩
  capture hx := ⟨h.capture hx.1, h'.capture hx.2⟩
  search find hsearch := ⟨h.search find hsearch, h'.search find hsearch⟩

theorem bind {x : Emit α} {f : α → Emit β} (hx : Q x) (hf : ∀ a, Q (f a)) : Q (x >>= f) :=
  h.bindResult hx fun a _ _ ↦ hf a

theorem lift_bind {value : Except Mismatch α} (hvalue : mayFail ∨ ∃ a, value = .ok a)
    {f : α → Emit β} (hf : ∀ a, value = .ok a → Q (f a)) : Q (lift value >>= f) := by
  cases value with
  | ok a => exact hf a rfl
  | error e =>
    rcases hvalue with hfail | ⟨a, ha⟩
    · exact h.fail e hfail
    · cases ha

theorem note (level : Log.Level) (source : Log.Source) (message : String) :
    Q (Emit.note level source message) :=
  h.tell _ (.note _)

theorem whenever {x : Emit Unit} (condition : Bool) (hx : condition = true → Q x) :
    Q (Emit.whenever condition x) := by
  cases condition with
  | false => exact h.done ()
  | true => exact hx rfl

theorem each {xs : List (Emit Unit)} (hxs : ∀ x ∈ xs, Q x) : Q (Emit.each xs) := by
  induction xs with
  | nil => exact h.done ()
  | cons x rest ih =>
    exact h.bind (hxs x List.mem_cons_self) fun _ ↦
      ih fun y hy ↦ hxs y (List.mem_cons_of_mem x hy)

end Closed

end Emit

/-! ## Parts -/

/-- What holds of every part of a node. -/
structure Parts.All (p : Part → Prop) (parts : Parts) : Prop where
  properties : ∀ x ∈ parts.properties, p x.2
  items : ∀ part, parts.items = some part → p part
  allOf : ∀ part ∈ parts.allOf, p part
  oneOf : ∀ part ∈ parts.oneOf, p part
  anyOf : ∀ part ∈ parts.anyOf, p part

theorem Schema.mem_branchParts {env : Environment} {branches : List Schema} {x : Part} :
    x ∈ branchParts env branches ↔
      ∃ branch ∈ branches, TypeExpression.part env branch (emit env branch) = x := by
  rw [branchParts_eq_map, List.mem_map]

theorem Schema.map_schema_branchParts (env : Environment) (branches : List Schema) :
    (branchParts env branches).map Part.schema = branches := by
  rw [branchParts_eq_map, List.map_map]
  exact List.map_id branches

theorem Schema.length_branchParts (env : Environment) (branches : List Schema) :
    (branchParts env branches).length = branches.length := by
  rw [branchParts_eq_map, List.length_map]

theorem Schema.isEmpty_branchParts (env : Environment) (branches : List Schema) :
    (branchParts env branches).isEmpty = branches.isEmpty := by
  rw [branchParts_eq_map, List.isEmpty_map]

theorem Schema.getElem?_branchParts {env : Environment} {branches : List Schema} {index : Nat}
    {x : Part} (h : (branchParts env branches)[index]? = some x) :
    ∃ branch, branches[index]? = some branch ∧
      x = TypeExpression.part env branch (emit env branch) := by
  rw [branchParts_eq_map, List.getElem?_map] at h
  obtain ⟨branch, hbranch, rfl⟩ := Option.map_eq_some_iff.mp h
  exact ⟨branch, hbranch, rfl⟩

/-- The parts of a node are the schemas right below it. -/
theorem Schema.parts_all {env : Environment} {s : Schema} {p : Part → Prop}
    (h : ∀ child ∈ s.children, p (TypeExpression.part env child (emit env child))) :
    (s.parts env).All p where
  properties := by
    intro x hx
    rw [parts, namedParts_eq_map] at hx
    obtain ⟨⟨name, child⟩, hmem, rfl⟩ := List.mem_map.mp hx
    exact h child (mem_children_of_mem_properties hmem)
  items := by
    intro x hx
    rw [parts, optionalPart_eq_map] at hx
    obtain ⟨child, hmem, rfl⟩ := Option.map_eq_some_iff.mp hx
    exact h child (mem_children_of_items_eq_some hmem)
  allOf := by
    intro x hx
    obtain ⟨child, hmem, rfl⟩ := mem_branchParts.mp hx
    exact h child (mem_children_of_mem_allOf hmem)
  oneOf := by
    intro x hx
    obtain ⟨child, hmem, rfl⟩ := mem_branchParts.mp hx
    exact h child (mem_children_of_mem_oneOf hmem)
  anyOf := by
    intro x hx
    obtain ⟨child, hmem, rfl⟩ := mem_branchParts.mp hx
    exact h child (mem_children_of_mem_anyOf hmem)

/-- Whether a name that a schema is mentioned by is one that may be mentioned. -/
def Schema.MentionedBy (env : Environment) (mayMention : String → Prop) (s : Schema) : Prop :=
  s.isSchemaReference = .ok true → ∀ name, s.refName = .ok name → mayMention (env.typeName name)

/-- What a rule needs of schemas is there, and the environment is sound, or else it may fail. -/
abbrev Environment.Provides (env : Environment) (mayFail needs : Prop) : Prop :=
  mayFail ∨ env.Sound ∧ needs

namespace TypeExpression

open Environment Emit

variable {env : Environment} {mayMention mayRegister : String → Prop} {maySearch mayFail : Prop}
  {Q : {α : Type} → Emit α → Prop} (h : Closed mayMention mayRegister maySearch mayFail Q)

/-! ## The rules for nodes -/

include h

theorem issue_closed (path : Path) {cause : Issue.Cause} (hcause : cause.kind ≠ .general) :
    Q (issue path cause) :=
  h.tell _ (.report _ hcause)

theorem requireOption_closed (henv : mayFail ∨ env.Sound) : Q env.requireOption := by
  have hkey := henv.imp_right Environment.Sound.exists_optionKey
  refine h.lift_bind (hkey.imp_right fun ⟨key, hkey, _⟩ ↦ ⟨key, hkey⟩) fun key hasKey ↦ ?_
  refine h.tell _ (.require key (hkey.imp_right ?_))
  rintro ⟨path, hpath, htext⟩
  rw [hpath] at hasKey
  exact Except.ok.inj hasKey ▸ htext

theorem documentedFields_closed (hdocs : env.options.docComments = true → maySearch ∧ mayFail)
    (path : Path) (s : Schema) : Q (env.documentedFields path s) := by
  unfold documentedFields
  split
  · next hdoc =>
    obtain ⟨hsearch, hfail⟩ := hdocs hdoc
    refine h.bind (h.search _ hsearch) fun candidates ↦ ?_
    cases Correlator.bestFields candidates with
    | ok fields => exact h.done fields
    | error e => exact h.fail e hfail
  · exact h.done _

theorem unknown_closed (types : List String) (path : Path) : Q (unknown types path) :=
  h.bind (h.note _ _ _) fun _ ↦ h.write _

theorem referenceType_closed {s : Schema} (hs : s.MentionedBy env mayMention)
    (htextual : env.Provides mayFail s.Textual) (ref : Json) (path : Path) :
    Q (referenceType env s ref path) := by
  have hspace := htextual.imp_right fun hsound ↦ hsound.2.exists_refNamespace_eq_ok
  refine h.lift_bind hspace fun space hspace ↦ ?_
  split
  · next hschemas =>
    have hname := htextual.imp_right fun hsound ↦ hsound.2.exists_refName_eq_ok
    refine h.lift_bind hname fun name hname ↦ ?_
    have href : s.isSchemaReference = .ok true := by
      rw [Schema.isSchemaReference, hspace]
      exact congrArg Except.ok hschemas
    exact h.bind (h.mention _ (hs href name hname)) fun _ ↦ h.write _
  · split
    · exact h.bind (h.note _ _ _) fun _ ↦ h.write _
    · refine h.bind (issue_closed h _ ?_) fun _ ↦ h.write _
      rintro ⟨⟩

/-- A comment that is no text is met only where tables have been searched. -/
theorem fieldComment_closed {documented : List (String × FieldInfo)}
    (hdocumented : mayFail ∨ documented = []) (name identifier : String) :
    Q (fieldComment documented name identifier) := by
  unfold fieldComment
  split
  · exact h.done ()
  · next info hinfo =>
    split
    · exact h.done ()
    · refine h.lift_bind (hdocumented.imp_right fun hnil ↦ ?_) fun _ _ ↦ h.write _
      rw [hnil] at hinfo
      cases hinfo

theorem fieldLine_closed (henv : mayFail ∨ env.Sound) (keywords : Schema.Keywords)
    {documented : List (String × FieldInfo)} (hdocumented : mayFail ∨ documented = [])
    (path : Path) (name : String) {part : Part}
    (hpart : (Identifier.ofSnakeCase name).isEmpty = false → Q (part.write (path.push name))) :
    Q (fieldLine env keywords documented path name part) := by
  unfold fieldLine
  dsimp only
  split
  · exact h.note _ _ _
  · next husable =>
    refine h.bind (fieldComment_closed h hdocumented _ _) fun _ ↦ ?_
    refine h.bind (h.capture (hpart (by simpa using husable))) fun type ↦ ?_
    split
    · exact h.write _
    · exact h.bind (requireOption_closed h henv) fun _ ↦ h.write _

theorem objectType_closed (hdocs : env.options.docComments = true → maySearch ∧ mayFail)
    (henv : mayFail ∨ env.Sound) {s : Schema} {path : Path}
    (hproperties : ∀ name t, (name, t) ∈ s.properties →
      (Identifier.ofSnakeCase name).isEmpty = false → Q (Schema.emitPart env t (path.push name))) :
    Q (objectType env s (s.parts env) path) := by
  refine h.bindResult (documentedFields_closed h hdocs path s) fun documented memory hresult ↦ ?_
  have hdocumented : mayFail ∨ documented = [] := by
    cases hdoc : env.options.docComments with
    | true => exact .inl (hdocs hdoc).2
    | false =>
      rw [documentedFields, hdoc] at hresult
      exact .inr (Except.ok.inj hresult).symm
  refine h.bind (h.write _) fun _ ↦ h.bind (h.each ?_) fun _ ↦ h.write _
  intro x hx
  obtain ⟨⟨name, part⟩, hmem, rfl⟩ := List.mem_map.mp hx
  have hproperty : (name, part) ∈ Schema.namedParts env s.properties := (mem_sorted _).mp hmem
  rw [Schema.namedParts_eq_map] at hproperty
  obtain ⟨⟨_, t⟩, ht, heq⟩ := List.mem_map.mp hproperty
  cases heq
  exact fieldLine_closed h henv _ hdocumented path name (hproperties name t ht)

theorem listType_closed {s : Schema} {path : Path}
    (hitems : ∀ t, s.items = some t → Q (Schema.emitPart env t (path.push "_[]"))) :
    Q (listType (s.parts env) path) := by
  unfold listType
  split
  · exact h.bind (issue_closed h _ nofun) fun _ ↦ h.write _
  · next part hpart =>
    rw [Schema.parts, Schema.optionalPart_eq_map] at hpart
    obtain ⟨t, ht, rfl⟩ := Option.map_eq_some_iff.mp hpart
    exact h.bind (h.write _) fun _ ↦ h.bind (h.capture (hitems t ht)) fun _ ↦ h.write _

theorem compositionType_closed {s : Schema} {path : Path}
    (hmembers : ∀ (index : Nat) (t : Schema), s.allOf[index]? = some t →
      Q (Schema.emitPart env t (path.push ("_allOf[" ++ toString index ++ "]")))) :
    Q (compositionType (s.parts env) path) := by
  refine h.bind (h.write _) fun _ ↦ h.bind (h.each ?_) fun _ ↦ h.write _
  intro x hx
  obtain ⟨index, hindex, rfl⟩ := List.mem_mapIdx.mp hx
  obtain ⟨t, ht, hpart⟩ := Schema.getElem?_branchParts (List.getElem?_eq_getElem hindex)
  rw [hpart]
  exact h.bind (h.capture (hmembers index t ht)) fun _ ↦ h.write _

theorem constants_closed {branches : List Schema}
    (htextual : env.Provides mayFail (∀ branch ∈ branches, branch.Textual)) (type : String)
    (path : Path) (index : Nat) : Q (constants env type path index branches) := by
  induction branches generalizing index with
  | nil => exact h.done _
  | cons branch rest ih =>
    have hbranch := htextual.imp_right fun hsound ↦
      Document.exists_deref_eq_ok hsound.1.document (hsound.2 branch List.mem_cons_self)
    have hrest := ih <| htextual.imp_right fun hsound ↦
      ⟨hsound.1, fun other hother ↦ hsound.2 other (List.mem_cons_of_mem branch hother)⟩
    refine h.lift_bind (hbranch.imp_right fun ⟨t, ht, _⟩ ↦ ⟨t, ht⟩) fun target htarget ↦ ?_
    split
    · exact h.bind (issue_closed h _ nofun) fun _ ↦ hrest _
    · next value _ =>
      have hconstant := hbranch.imp_right fun ⟨t, ht, htextual⟩ ↦ by
        rw [htarget] at ht
        obtain rfl := Except.ok.inj ht
        exact exists_constant_eq_ok htextual.keywords type value
      exact h.lift_bind hconstant fun _ _ ↦ h.bind (hrest _) fun _ ↦ h.done _

theorem constantSet_closed {branches : List Schema}
    (htextual : env.Provides mayFail (∀ branch ∈ branches, branch.Textual)) (base : String)
    {path : Path} (hname : path.isRoot = false → mayRegister path.exportedName) :
    Q (constantSet env base branches path) := by
  refine h.bind (constants_closed h htextual _ _ _) fun _ ↦ ?_
  split
  · exact h.write _
  · next hroot =>
    have hdeclared : declaredName path = path.exportedName := by rw [declaredName, if_neg hroot]
    rw [hdeclared]
    refine h.hoist _ _ (hname (by simpa using hroot)) ?_
    exact (((Declares.type _ base).append "\n\n").append _).append "\n\n"

omit h in
/-- Where a node is textual, its alternatives are. -/
theorem textual_oneOf {s : Schema} (htextual : env.Provides mayFail s.Textual) :
    env.Provides mayFail (∀ branch ∈ s.oneOf, branch.Textual) :=
  htextual.imp_right fun hsound ↦
    ⟨hsound.1, fun _ hmem ↦ hsound.2.of_mem_children (Schema.mem_children_of_mem_oneOf hmem)⟩

theorem textType_closed {s : Schema} (htextual : env.Provides mayFail s.Textual) {path : Path}
    (hname : s.keywords.format ≠ .text "snowflake" → s.keywords.format ≠ .text "date-time" →
      s.oneOf ≠ [] → path.isRoot = false → mayRegister path.exportedName) :
    Q (textType env s path) := by
  unfold textType
  split
  · refine h.bind (h.each ?_) fun _ ↦ h.write _
    intro x hx
    obtain ⟨record, -, rfl⟩ := List.mem_map.mp hx
    exact h.tell _ (.note record)
  · exact h.bind (h.tell _ (.require _ (.inr ⟨_, rfl⟩))) fun _ ↦ h.write _
  · next hsnowflake htime =>
    split
    · exact h.write _
    · next honeOf =>
      exact constantSet_closed h (textual_oneOf htextual) _
        (hname hsnowflake htime (by simpa using honeOf))

theorem writeText_closed {value : Json} (hvalue : mayFail ∨ value.IsText) :
    Q (writeText value) := by
  unfold writeText
  split
  · exact h.write _
  · next htext =>
    rcases hvalue with hfail | ⟨text, rfl⟩
    · exact h.fail _ hfail
    · exact absurd rfl (htext text)

omit h in
/-- The type that an integer is composed of is named by the one member of its composition. -/
theorem exists_of_integerName_eq_ok {s : Schema} {name : String}
    (hname : integerName env s = .ok name) (hne : name.isEmpty = false) :
    ∃ member ∈ s.allOf, member.isSchemaReference = .ok true ∧
      ∃ ref, member.refName = .ok ref ∧ name = env.typeName ref := by
  unfold integerName at hname
  split at hname
  · next member hall =>
    cases href : member.isSchemaReference with
    | error e => rw [href] at hname; cases hname
    | ok isRef =>
      rw [href] at hname
      cases isRef with
      | false => cases hname; cases hne
      | true =>
        cases hn : member.refName with
        | error e => simp [hn, bind, Except.bind] at hname
        | ok ref =>
          simp only [hn, bind, Except.bind, pure, Except.pure, if_true, Except.ok.injEq] at hname
          exact ⟨member, by simp [hall], href, ref, hn, hname.symm⟩
  · cases hname
    cases hne

theorem integerType_closed {s : Schema} (hs : ∀ member ∈ s.allOf, member.MentionedBy env mayMention)
    (htextual : env.Provides mayFail s.Textual) {path : Path}
    (hname : s.oneOf ≠ [] → path.isRoot = false → mayRegister path.exportedName) :
    Q (integerType env s path) := by
  refine h.lift_bind (htextual.imp_right fun hsound ↦ exists_integerName_eq_ok hsound.2)
    fun name hnamed ↦ ?_
  have hisEnum : mayFail ∨ ∃ isEnum,
      (if name.isEmpty then env.options.isEnumName path.current else .ok false) = .ok isEnum := by
    refine htextual.imp_right fun hsound ↦ ?_
    split
    · exact hsound.1.enumNames _
    · exact ⟨false, rfl⟩
  refine h.lift_bind hisEnum fun isEnum _ ↦ ?_
  refine h.bind (h.whenever _ fun _ ↦ h.note _ _ _) fun _ ↦ ?_
  refine h.bind (h.whenever _ fun hne ↦ ?_) fun _ ↦ ?_
  · obtain ⟨member, hmem, href, ref, hrefName, rfl⟩ :=
      exists_of_integerName_eq_ok hnamed (by simpa using hne)
    exact h.mention _ (hs member hmem href ref hrefName)
  · dsimp only
    split
    · refine writeText_closed h (htextual.imp_right fun hsound ↦ ?_)
      split
      · exact ⟨name, rfl⟩
      split
      · exact ⟨"int", rfl⟩
      · exact hsound.2.keywords.format
    · next honeOf =>
      exact constantSet_closed h (textual_oneOf htextual) _ (hname (by simpa using honeOf))

theorem declareVariant_closed {path : Path} {name : String} {part : Part}
    (htextual : mayFail ∨ part.schema.Textual)
    (hvariant : part.schema.isSchemaReference = .ok false →
      mayRegister name ∧ Q (part.write (path.push name))) :
    Q (declareVariant path name part) := by
  refine h.lift_bind (htextual.imp_right Schema.Textual.exists_isSchemaReference_eq_ok)
    fun isReference href ↦ ?_
  split
  · exact h.done _
  · next hinline =>
    obtain rfl : isReference = false := by simpa using hinline
    obtain ⟨hname, hbody⟩ := hvariant href
    refine h.bind (h.capture hbody) fun body ↦ h.register _ _ hname ?_
    exact (Declares.type name body).append "\n\n"

theorem namedUnion_closed (union : String) {branches : List Schema} {path : Path}
    (htextual : env.Provides mayFail (∀ branch ∈ branches, branch.Textual))
    (hvariants : ∀ names, variantNames env union branches = .ok names →
      ∀ name t, (name, t) ∈ names.zip branches → t.isSchemaReference = .ok false →
        mayRegister name ∧ Q (Schema.emitPart env t (path.push name))) :
    Q (namedUnion env union (Schema.branchParts env branches) path) := by
  have hnames : mayFail ∨ ∃ names, variantNames env union branches = .ok names :=
    htextual.imp_right fun hsound ↦ exists_variantNames_eq_ok hsound.2 union
  unfold namedUnion
  rw [Schema.map_schema_branchParts]
  refine h.bind (h.note _ _ _) fun _ ↦ h.lift_bind hnames fun names hnames ↦ ?_
  refine h.bind (h.write _) fun _ ↦ h.each ?_
  intro x hx
  obtain ⟨⟨name, part⟩, hmem, rfl⟩ := List.mem_map.mp hx
  rw [Schema.branchParts_eq_map, List.zip_map_right] at hmem
  obtain ⟨⟨_, t⟩, ht, heq⟩ := List.mem_map.mp hmem
  cases heq
  refine declareVariant_closed h (htextual.imp_right fun hsound ↦ ?_)
    (hvariants names hnames _ t ht)
  exact hsound.2 t (List.of_mem_zip ht).2

theorem unionType_closed (nullable : Bool) (marker : String) {branches : List Schema} {path : Path}
    (htextual : env.Provides mayFail (∀ branch ∈ branches, branch.Textual))
    (hbeside : ∀ (index : Nat) (t : Schema), env.branchBesideNull branches = .ok (some index) →
      branches[index]? = some t →
      Q (Schema.emitPart env t (path.push (marker ++ "[" ++ toString index ++ "]"))))
    (hunion : env.branchBesideNull branches = .ok none → mayRegister path.exportedName ∧
      ∀ names, variantNames env path.exportedName branches = .ok names →
        ∀ name t, (name, t) ∈ names.zip branches → t.isSchemaReference = .ok false →
          mayRegister name ∧ Q (Schema.emitPart env t (path.push name))) :
    Q (unionType env nullable marker (Schema.branchParts env branches) path) := by
  unfold unionType
  rw [Schema.map_schema_branchParts]
  refine h.lift_bind (htextual.imp_right fun hsound ↦
    hsound.1.exists_branchBesideNull_eq_ok hsound.2) fun beside hnull ↦ ?_
  split
  · next index part hfound =>
    obtain ⟨i, hi, hpart⟩ := Option.bind_eq_some_iff.mp hfound
    obtain ⟨p, hp, heq⟩ := Option.map_eq_some_iff.mp hpart
    cases heq
    obtain ⟨t, ht, rfl⟩ := Schema.getElem?_branchParts hp
    exact h.bind (h.capture (hbeside index t (by rw [hnull, hi]) ht)) fun _ ↦ h.write _
  · next hnothing =>
    obtain rfl : beside = none := by
      cases beside with
      | none => rfl
      | some index =>
        have hlt := Schema.lt_length_of_branchBesideNull hnull
        rw [← Schema.length_branchParts env] at hlt
        rw [Option.bind_some, List.getElem?_eq_getElem hlt] at hnothing
        cases hnothing
    obtain ⟨hname, hvariants⟩ := hunion hnull
    refine h.bindResult (h.capture (namedUnion_closed h _ htextual hvariants))
      fun text memory htext ↦ ?_
    obtain ⟨hended, rfl⟩ := of_result_capture_eq_ok htext
    exact h.hoist _ _ hname ((writesDeclaration_namedUnion env _ _ path).of_ended hended)

variable (hdocs : env.options.docComments = true → maySearch ∧ mayFail) {s : Schema}
  (htextual : env.Provides mayFail s.Textual) {path : Path}
  {place : Schema → Path → Prop} (hplaces : Schema.Places env mayRegister place)
  (hplace : place s path)
  (hparts : ∀ kind name t, Schema.Step env s path kind name t →
    Q (Schema.emitPart env t (path.push name)))

include htextual hplaces hplace hparts

/-- A union is written from its branches, and hoists what goes with its place. -/
theorem choiceType_closed (hchoice : s.IsChoice) (nullable : Bool) :
    Q (unionType env nullable s.marker (Schema.branchParts env s.alternatives) path) := by
  refine unionType_closed h _ _ ?_ ?_ ?_
  · exact htextual.imp_right fun hsound ↦ ⟨hsound.1, fun branch hbranch ↦
      hsound.2.of_mem_children (Schema.mem_children_of_mem_alternatives hbranch)⟩
  · exact fun index t hbeside ht ↦ hparts _ _ t (.beside hchoice hbeside ht)
  · intro hbeside
    refine ⟨hplaces.hoist hplace (.union hchoice hbeside), fun names hnames name t ht href ↦ ?_⟩
    have hvariant : Schema.Variant env s path name t :=
      .intro hchoice hbeside (.inl rfl) hnames ht href
    exact ⟨hplaces.variant hplace hvariant, hparts _ _ t (.variant hvariant)⟩

include hdocs

theorem untypedType_closed (hkind : s.kind? = some .untyped) :
    Q (untypedType env s (s.parts env) path) := by
  have hchoice := fun hchoice : s.IsChoice ↦
    choiceType_closed h htextual hplaces hplace hparts hchoice s.keywords.nullable
  unfold untypedType
  simp only [Schema.parts, Schema.isEmpty_branchParts, Bool.not_eq_true', List.isEmpty_eq_false_iff]
  split
  · exact compositionType_closed h fun index t ht ↦ hparts _ _ t (.member hkind ht)
  next hallOf =>
  split
  · next honeOf =>
    have halternatives := Schema.alternatives_of_oneOf_ne_nil honeOf
    rw [halternatives, Schema.marker, if_neg (by simpa using honeOf)] at hchoice
    exact hchoice ⟨hkind, not_not.mp hallOf, halternatives ▸ honeOf⟩
  next honeOf =>
  have halternatives := Schema.alternatives_of_oneOf_eq_nil (not_not.mp honeOf)
  split
  · next hanyOf =>
    rw [halternatives, Schema.marker, if_pos (by simpa using honeOf)] at hchoice
    exact hchoice ⟨hkind, not_not.mp hallOf, halternatives ▸ hanyOf⟩
  next hanyOf =>
  split
  · exact h.bind (issue_closed h _ nofun) fun _ ↦ h.write _
  next hnegated =>
  split
  · refine objectType_closed h hdocs (htextual.imp_right And.left) fun name t ht husable ↦ ?_
    refine hparts _ _ t (.property (.untyped hkind (not_not.mp hallOf) ?_ ?_) ht husable)
    · rw [halternatives, not_not.mp hanyOf]
    · simpa using hnegated
  · exact unknown_closed h _ _

variable (hs : ∀ member ∈ s.allOf, member.MentionedBy env mayMention)

include hs

theorem kindType_closed : Q (kindType env s.kind? s (s.parts env) path) := by
  have henv := htextual.imp_right And.left
  unfold kindType
  split
  · next hkind =>
    exact objectType_closed h hdocs henv fun name t ht husable ↦
      hparts _ _ t (.property (.declared hkind) ht husable)
  · next hkind => exact listType_closed h fun t ht ↦ hparts _ _ t (.items hkind ht)
  · next hkind =>
    exact textType_closed h htextual fun hsnowflake htime honeOf hroot ↦
      hplaces.hoist hplace (.constants (.text hkind hsnowflake htime honeOf) hroot)
  · next hkind =>
    exact integerType_closed h hs htextual fun honeOf hroot ↦
      hplaces.hoist hplace (.constants (.integer hkind honeOf) hroot)
  · have htype := htextual.imp_right fun hsound ↦
      exists_numberType_eq_ok hsound.2.keywords.format
    exact h.lift_bind htype fun _ _ ↦ h.write _
  · exact h.write _
  · exact h.bind (requireOption_closed h henv) fun _ ↦ h.write _
  · next hkind => exact untypedType_closed h hdocs htextual hplaces hplace hparts hkind
  · exact unknown_closed h _ _

theorem nodeType_closed : Q (nodeType env s (s.parts env) path) := by
  unfold nodeType
  split
  · exact h.bind (issue_closed h _ nofun) fun _ ↦ h.write _
  · next type htype =>
    refine h.bind (h.whenever _ fun _ ↦ h.write _) fun _ ↦ ?_
    rw [← Schema.kind?_eq_of_ofTypes_eq_ok htype]
    exact kindType_closed h hdocs htextual hplaces hplace hparts hs

omit hdocs hplaces hplace hparts hs in
theorem partType_closed (hs : s.MentionedBy env mayMention) {body : Path → Emit Unit}
    (hbody : Q (body path)) : Q (partType env s body path) := by
  refine h.bind (h.note _ _ _) fun _ ↦ ?_
  split
  · exact referenceType_closed h hs htextual _ _
  · exact hbody

end TypeExpression

/-! ## Schemas -/

namespace Schema

open TypeExpression Emit

variable {env : Environment} {mayMention mayRegister : String → Prop} {maySearch mayFail : Prop}
  {Q : {α : Type} → Emit α → Prop} (h : Closed mayMention mayRegister maySearch mayFail Q)
  (hdocs : env.options.docComments = true → maySearch ∧ mayFail) {s : Schema}
  (htextual : env.Provides mayFail s.Textual)

include h hdocs htextual

section

variable {place : Schema → Path → Prop} (hplaces : Places env mayRegister place)

include hplaces

/-- **Closed properties hold of every schema.** The induction is on the tree: what the parts of a
node write has the property by induction, and the rules for one node keep it. -/
theorem emit_closed (hs : ∀ t, Within t s → t.MentionedBy env mayMention) {path : Path}
    (hplace : place s path) : Q (emit env s path) := by
  induction s using children_induction generalizing path with
  | step s ih =>
    rw [emit_eq]
    have hmentioned : ∀ child ∈ s.children, child.MentionedBy env mayMention :=
      fun child hchild ↦ hs child (.step hchild .self)
    refine nodeType_closed h hdocs htextual hplaces hplace ?_
      fun member hmem ↦ hmentioned member (mem_children_of_mem_allOf hmem)
    intro kind name t hstep
    have hchild := hstep.mem_children
    have hchildTextual : env.Provides mayFail t.Textual :=
      htextual.imp_right (.imp_right (·.of_mem_children hchild))
    exact partType_closed h hchildTextual (hmentioned t hchild)
      (ih t hchild hchildTextual (fun u hu ↦ hs u (.step hchild hu)) (hplaces.step hplace hstep))

theorem emitPart_closed (hs : ∀ t, Within t s → t.MentionedBy env mayMention) {path : Path}
    (hplace : place s path) : Q (emitPart env s path) :=
  partType_closed h htextual (hs s .self) (emit_closed h hdocs htextual hplaces hs hplace)

/-- At a root what a reference leads to is written, so that its names are mentioned, too. -/
theorem emitRoot_closed
    (hs : ∀ u, env.document.Leads s u → ∀ t, Within t u → t.MentionedBy env mayMention)
    {path : Path} (hplace : ∀ u, env.document.Leads s u → place u path) :
    Q (emitRoot env s path) := by
  refine h.bind (h.note _ _ _) fun _ ↦ ?_
  split
  · exact emit_closed h hdocs htextual hplaces (hs s (.refl s)) (hplace s (.refl s))
  · next ref href =>
    have hresolve := htextual.imp_right fun hsound ↦
      hsound.2.exists_resolve_eq_ok env.document href
    refine h.lift_bind hresolve fun target htarget ↦ ?_
    split
    · next target =>
      have hleads : env.document.Leads s target := .step href htarget (.refl _)
      refine emit_closed h hdocs (htextual.imp_right fun hsound ↦ ?_) hplaces (hs _ hleads)
        (hplace _ hleads)
      exact ⟨hsound.1, hsound.1.document.of_resolve_eq_ok htarget⟩
    · exact h.bind (issue_closed h _ nofun) fun _ ↦ h.write _

/-- A schema is declared at its root: as the union that it is, or as what is written for it. -/
theorem emitNamed_closed
    (hs : ∀ u, env.document.Leads s u → ∀ t, Within t u → t.MentionedBy env mayMention)
    {name : String}
    (hunion : ∀ u variant t, env.document.Leads s u → Variant env u (.ofRoot name) variant t →
      mayRegister variant ∧ place t ((Path.ofRoot name).push variant))
    (hplace : ¬ env.DeclaresUnion s → ∀ u, env.document.Leads s u → place u (.ofRoot name)) :
    Q (emitNamed env name s) := by
  have halias := htextual.imp_right fun hsound ↦ hsound.2.exists_isSchemaReference_eq_ok
  refine h.lift_bind halias fun isAlias hisAlias ↦ ?_
  have hnode : mayFail ∨ ∃ node,
      (if isAlias then env.document.deref s else .ok s) = .ok node := by
    refine htextual.imp_right fun hsound ↦ ?_
    split
    · obtain ⟨t, ht, -⟩ := Document.exists_deref_eq_ok hsound.1.document hsound.2
      exact ⟨t, ht⟩
    · exact ⟨s, rfl⟩
  refine h.lift_bind hnode fun node hnode ↦ ?_
  have hleads := Document.leads_of_ite_deref_eq_ok hnode
  have hnodeTextual : env.Provides mayFail node.Textual := htextual.imp_right fun hsound ↦
    ⟨hsound.1, hleads.of_forall_mem_entries hsound.1.document hsound.2⟩
  have hbranches := hnodeTextual.imp_right fun hsound ↦
    hsound.1.exists_unionBranches_eq_ok hsound.2
  have hdeclared : env.declaredNode s = .ok node := by
    rw [Environment.declaredNode, hisAlias]
    exact hnode
  refine h.lift_bind hbranches fun branches hbranches ↦ ?_
  split
  · next branches =>
    obtain ⟨hchoice, hbeside, rfl⟩ := of_unionBranches_eq_ok hbranches
    have hchild : ∀ branch ∈ node.alternatives, branch ∈ node.children :=
      fun branch hmem ↦ mem_children_of_mem_alternatives hmem
    refine namedUnion_closed h _ (hnodeTextual.imp_right (.imp_right fun hnode branch hmem ↦
      hnode.of_mem_children (hchild branch hmem))) ?_
    intro names hnames variant t ht href
    have hmem := hchild t (List.of_mem_zip ht).2
    obtain ⟨hname, hvariant⟩ := hunion node variant t hleads
      (.intro hchoice hbeside (.inr ⟨rfl, rfl⟩) hnames ht href)
    refine ⟨hname, emitPart_closed h hdocs ?_ hplaces (fun u hu ↦ hs node hleads u (.step hmem hu))
      hvariant⟩
    exact hnodeTextual.imp_right (.imp_right (·.of_mem_children hmem))
  · have hplain : ¬ env.DeclaresUnion s := by
      rintro ⟨other, branches, hother, hunion⟩
      rw [hdeclared] at hother
      cases hother
      rw [hbranches] at hunion
      cases hunion
    refine h.bind (h.write _) fun _ ↦ ?_
    exact h.bind (emitRoot_closed h hdocs htextual hplaces hs (hplace hplain)) fun _ ↦ h.write _

end

end Schema

end SchemaTypes
