import SchemaTypes.Generation
import SchemaTypes.Proofs.Emission.Agreement
import SchemaTypes.Proofs.Run.Performance

/-!
# Emission does not depend on the run

Emissions know nothing of the run that they happen to but what the search for tables remembers, and
without documentation comments tables are not searched. So an emission is then the same whatever is
remembered (`memoryless_closed`) and whatever tables there are (`emitNamed_withCorrelator`).

What a run makes of an emission still depends on the run in two ways: a declaration may collide with
one that the run holds, and a collision is an obstacle where the limit of issues is no number.
Between runs with numbers for limits an emission looks alike in everything but collisions
(`take_alike`). Without that condition it does not (`not_alike_of_text_limit`).
-/

namespace SchemaTypes

/-! ## Emissions without memory -/

namespace Emit

variable {α β : Type}

/-- An emission neither looks at what the search for tables remembers nor changes it. -/
def Memoryless (x : Emit α) : Prop := ∀ memory, x memory = ⟨(x []).acts, memory, (x []).result⟩

/-- What is emitted without a search for tables does without memory. -/
theorem memoryless_closed : Closed (fun _ ↦ True) (fun _ ↦ True) False True Memoryless where
  done _ _ := rfl
  fail _ _ _ := rfl
  write _ _ := rfl
  tell _ _ _ := rfl
  mention _ _ _ := rfl
  register _ _ _ _ _ := rfl
  hoist _ _ _ _ _ := rfl
  search _ h := h.elim
  capture {x} hx memory := by
    have hmemory := hx memory
    simp only [capture, Emission.events, Emission.text, hmemory]
  bindResult {_ _ x f} hx hf memory := by
    have hmemory := hx memory
    have hnil := hx []
    cases hresult : (x []).result with
    | error e =>
      rw [hresult] at hmemory hnil
      rw [bind_apply_of_error hmemory, bind_apply_of_error hnil]
    | ok a =>
      rw [hresult] at hmemory hnil
      rw [bind_apply_of_ok hmemory, bind_apply_of_ok hnil, hf a [] hresult memory]

end Emit

/-! ## Emissions without tables -/

namespace Schema

open Environment

variable {env : Environment} (hdoc : env.options.docComments = false) (correlator : Correlator)

include hdoc

omit hdoc in
theorem agree_withCorrelator : Agree id env { env with correlator } := agree_id rfl rfl rfl rfl rfl

/-- Only objects are described by tables, and only where documentation comments are wanted. -/
theorem documentedFields_withCorrelator (path : Path) (s : Schema) :
    documentedFields { env with correlator } path s = documentedFields env path s := by
  rw [documentedFields, documentedFields]
  simp only [hdoc, Bool.false_eq_true, if_false]

/-- Without documentation comments tables have no part in the type at the end of a path. -/
theorem emitAt_withCorrelator (s : Schema) (path : Path) :
    emitAt { env with correlator } s path = emitAt env s path :=
  emitAt_renumber renumbers_id (agree_withCorrelator correlator)
    (documentedFields_withCorrelator hdoc correlator) (fun _ _ t _ ↦ keepsOrder_id t) path

/-- Without documentation comments tables have no part in the declaration of a schema. -/
theorem emitNamed_withCorrelator (name : String) (s : Schema) :
    emitNamed { env with correlator } name s = emitNamed env name s :=
  emitNamed_renumber renumbers_id (agree_withCorrelator correlator)
    (documentedFields_withCorrelator hdoc correlator) (fun _ _ t _ ↦ keepsOrder_id t) name

omit correlator

theorem memoryless_emitNamed (name : String) (s : Schema) : (emitNamed env name s).Memoryless :=
  emitNamed_closed Emit.memoryless_closed (by simp [hdoc]) (.inl trivial) (.everywhere env)
    (fun _ _ _ _ _ _ _ ↦ trivial) (fun _ _ _ _ _ ↦ ⟨trivial, trivial⟩) fun _ _ _ ↦ trivial

theorem memoryless_emitAt (s : Schema) (path : Path) : (emitAt env s path).Memoryless := by
  refine Emit.memoryless_closed.capture ?_
  split
  · exact emitRoot_closed Emit.memoryless_closed (by simp [hdoc]) (.inl trivial) (.everywhere env)
      (fun _ _ _ _ _ _ _ ↦ trivial) fun _ _ ↦ trivial
  · exact emitPart_closed Emit.memoryless_closed (by simp [hdoc]) (.inl trivial) (.everywhere env)
      (fun _ _ _ _ _ ↦ trivial) trivial

end Schema

/-! ## What a run sees of an emission -/

open Event

/-- Two emissions look alike in two runs: apart from collisions of names, what the runs hold makes
no difference. -/
structure Run.Alike (r₁ r₂ : Run) (x₁ x₂ : Emit Unit) : Prop where
  /-- The same is written. -/
  text : (r₁.take x₁).text = (r₂.take x₂).text
  /-- Both end of themselves, or both for the same reason. -/
  obstacle : (r₁.take x₁).obstacle = (r₂.take x₂).obstacle
  /-- The same declarations are handed over, in the same order. -/
  registrations : registrations (r₁.undergone x₁) = registrations (r₂.undergone x₂)
  /-- The same packages are added to those that the runs need already. -/
  required : ∃ added : List Json.Key, ∀ path,
    (path ∈ (r₁.take x₁).run.required ↔ path ∈ r₁.required ∨ path ∈ added) ∧
      (path ∈ (r₂.take x₂).run.required ↔ path ∈ r₂.required ∨ path ∈ added)
  /-- The same issues are recorded, in the same order. -/
  issues : (r₁.recorded (r₁.undergone x₁)).filter (fun i ↦ i.cause.kind != .nameCollision) =
    (r₂.recorded (r₂.undergone x₂)).filter fun i ↦ i.cause.kind != .nameCollision

/-- An emission without memory looks alike in all runs whose limits are numbers. -/
theorem Run.alike_of_memoryless {x : Emit Unit} (hx : x.Memoryless) {r₁ r₂ : Run}
    (h₁ : r₁.issues.limit.isNumber = true) (h₂ : r₂.issues.limit.isNumber = true) :
    Alike r₁ r₂ x x := by
  have hevents : (x r₁.memory).events = (x r₂.memory).events := by
    rw [hx r₁.memory, hx r₂.memory]
    rfl
  have htake₁ := take_eq_of_isNumber h₁ x
  have htake₂ := take_eq_of_isNumber h₂ x
  refine ⟨?_, ?_, ?_, ⟨requirements (x r₂.memory).events, fun path ↦ ⟨?_, ?_⟩⟩, ?_⟩
  · rw [htake₁, htake₂, hx r₁.memory, hx r₂.memory]
    rfl
  · rw [htake₁, htake₂, hx r₁.memory, hx r₂.memory]
    rfl
  · rw [undergone_eq_of_isNumber h₁, undergone_eq_of_isNumber h₂, hevents]
  · rw [htake₁, mem_required_applyAll, hevents]
  · rw [htake₂, mem_required_applyAll]
  · rw [filter_recorded, filter_recorded, undergone_eq_of_isNumber h₁,
      undergone_eq_of_isNumber h₂, hevents]

/-- **Emission does not depend on the run.** Without documentation comments, the type at the end of
a path and the declaration of a schema look alike in any two runs whose limits are numbers, whatever
the runs hold and whatever tables there are. -/
theorem Schema.emissions_alike {env : Environment} (hdoc : env.options.docComments = false)
    (correlator : Correlator) {r₁ r₂ : Run} (h₁ : r₁.issues.limit.isNumber = true)
    (h₂ : r₂.issues.limit.isNumber = true) (s : Schema) :
    (∀ path, Run.Alike r₁ r₂ (emitAt env s path >>= Emit.write)
      (emitAt { env with correlator } s path >>= Emit.write)) ∧
    ∀ name, Run.Alike r₁ r₂ (emitNamed env name s) (emitNamed { env with correlator } name s) := by
  constructor
  · intro path
    have hsame := emitAt_withCorrelator hdoc correlator s path
    rw [hsame]
    refine Run.alike_of_memoryless ?_ h₁ h₂
    exact Emit.memoryless_closed.bind (memoryless_emitAt hdoc s path)
      fun text ↦ Emit.memoryless_closed.write text
  · intro name
    have hsame := emitNamed_withCorrelator hdoc correlator name s
    rw [hsame]
    exact Run.alike_of_memoryless (memoryless_emitNamed hdoc name s) h₁ h₂

/-- An object with one property, which is a text or of a second type. -/
def Schema.choice (property second : String) : Schema :=
  .node { Keywords.blank 1 with types := ["object"], required := [.text property] }
    [(property, .node (.blank 2) [] none []
      [leaf { Keywords.blank 3 with types := ["string"] },
       leaf { Keywords.blank 4 with types := [second] }] [] none)]
    none [] [] [] none

/-- A run that holds another type under the name of a variant of `GuildMember.role`. -/
def Run.crowded (limit : Json) : Run :=
  (Run.start limit).apply (.register "GuildMemberRoleString" "type GuildMemberRoleString int\n\n")

/-- The union of `GuildMember.role` looks alike where its names are free and where one is taken. -/
theorem Schema.emissions_alike_crowded :
    (Run.crowded (.int 10)).registry.lookup "GuildMemberRoleString" ≠ none ∧
    Run.Alike (.start (.int 0)) (.crowded (.int 10))
      (emitNamed (Generation.plainEnvironment default) "GuildMember" (.choice "role" "boolean"))
      (emitNamed (Generation.plainEnvironment default) "GuildMember"
        (.choice "role" "boolean")) := by
  refine ⟨by decide +kernel, ?_⟩
  have hdoc : (Generation.plainEnvironment default).options.docComments = false := rfl
  have hstart : (Run.start (.int 0)).issues.limit.isNumber = true := rfl
  have hcrowded : (Run.crowded (.int 10)).issues.limit.isNumber = true := by decide +kernel
  exact (emissions_alike hdoc ⟨[]⟩ hstart hcrowded (.choice "role" "boolean")).2 "GuildMember"

/-- Where the limit is a text, the same union ends the emission if one of its names is taken. -/
theorem Run.not_alike_of_text_limit :
    ¬ Run.Alike (.start (.text "x")) (.crowded (.text "x"))
      (Schema.emitNamed (Generation.plainEnvironment default) "GuildMember"
        (.choice "role" "boolean"))
      (Schema.emitNamed (Generation.plainEnvironment default) "GuildMember"
        (.choice "role" "boolean")) := by
  intro h
  have hfree : ((Run.start (.text "x")).take (Schema.emitNamed
      (Generation.plainEnvironment default) "GuildMember" (.choice "role" "boolean"))).obstacle =
        none := by
    decide +kernel
  have htaken : ((Run.crowded (.text "x")).take (Schema.emitNamed
      (Generation.plainEnvironment default) "GuildMember" (.choice "role" "boolean"))).obstacle =
        some (.notComparable "<" .int .text) := by
    decide +kernel
  have hsame := h.obstacle
  rw [hfree, htaken] at hsame
  cases hsame

end SchemaTypes
