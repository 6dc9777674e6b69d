import SchemaTypes.Proofs.Generation.Orders

/-!
# Collisions and the order of tasks

Schemas that hoist different declarations under one name collide, and then the order of the tasks
does show: the run keeps what the first task hoists that hoists anything under the name
(`lookup_registry_emission`). The names that are held are the same in every order, and two orders
that keep different texts under a name have both recorded that the name collides
(`kept_texts_of_perm`).

Where the limit of issues is no number, a collision ends the task that meets it, so that even the
names that are held depend on the order. All statements are for limits that are numbers.
-/

namespace SchemaTypes

open Event

/-! ## Collisions -/

namespace Run

variable {r : Run} {events : List Event}

/-- A registration whose text is not the one kept is recorded as a collision. -/
theorem duplicateName_mem_recorded {name text : String} (hmem : (name, text) ∈ registrations events)
    (hkept : (r.applyAll events).registry.lookup name ≠ some text) :
    ⟨"", .duplicateName name⟩ ∈ r.recorded events := by
  induction events generalizing r with
  | nil => cases hmem
  | cons event rest ih =>
    rw [recorded, List.mem_append]
    rw [mem_registrations, List.mem_cons] at hmem
    rcases hmem with rfl | hrest
    · left
      have hregistered : (name, text) ∈ registrations [.register name text] :=
        mem_registrations.mpr List.mem_cons_self
      have hheld := isSome_lookup_registry_applyAll hregistered r
      have hoverruled : (r.apply (.register name text)).overrules (name, text) = true := by
        rw [← overrules_applyAll hheld rest]
        simpa [overrules, applyAll] using hkept
      rw [issue?_register, if_pos hoverruled]
      exact List.mem_singleton_self _
    · exact .inr (ih (mem_registrations.mpr hrest) hkept)

end Run

namespace Generation

open Schedule

variable {env : Environment} (hdoc : env.options.docComments = false) {es fs : List Entry} {r : Run}

/-- The text that an entry hoists first under a name. -/
def Entry.hoists? (env : Environment) (name : String) (e : Entry) : Option String :=
  (registrations (e.events env)).lookup name

theorem lookup_registrations_flatMap (es : List Entry) (name : String) :
    (registrations (es.flatMap (Entry.events env))).lookup name =
      es.findSome? (Entry.hoists? env name) := by
  induction es with
  | nil => rfl
  | cons e rest ih =>
    rw [List.flatMap_cons, registrations_append, List.lookup_append, ih, List.findSome?_cons,
      Entry.hoists?]
    cases (registrations (e.events env)).lookup name <;> rfl

include hdoc

/-- Where the limit is a number, the events of a course are those of its entries. -/
theorem emissionEvents_eq_flatMap_of_isNumber (hlimit : r.issues.limit.isNumber = true)
    (es : List Entry) : emissionEvents env es r = es.flatMap (Entry.events env) := by
  induction es generalizing r with
  | nil => rfl
  | cons e rest ih =>
    have hlater : (emitEntry env e r).2.issues.limit.isNumber = true := by
      rw [run_emitEntry, Run.limit_applyAll]
      exact hlimit
    rw [emissionEvents_cons, Run.undergone_eq_of_isNumber hlimit, events_declaration hdoc,
      ih hlater, List.flatMap_cons]

/-- **What a run holds when entries have been emitted into it**: what it held, and under any other
name what the first entry hoists that hoists anything under it. -/
theorem lookup_registry_emission (hlimit : r.issues.limit.isNumber = true) (es : List Entry)
    (name : String) :
    (runAll (emitEntry env) es r).2.registry.lookup name =
      (r.registry.lookup name).or (es.findSome? (Entry.hoists? env name)) := by
  rw [run_emission, emissionEvents_eq_flatMap_of_isNumber hdoc hlimit,
    Run.lookup_registry_applyAll, lookup_registrations_flatMap]

/-- A text that an order keeps under a name has been registered in every order. -/
theorem mem_registrations_of_kept (hlimit : r.issues.limit.isNumber = true) (hperm : es.Perm fs)
    {name text : String} (hnew : r.registry.lookup name = none)
    (hkept : (runAll (emitEntry env) es r).2.registry.lookup name = some text) :
    (name, text) ∈ registrations (emissionEvents env fs r) := by
  rw [run_emission, Run.lookup_registry_applyAll, hnew, Option.none_or,
    emissionEvents_eq_flatMap_of_isNumber hdoc hlimit] at hkept
  have hsame : (registrations (es.flatMap (Entry.events env))).Perm
      (registrations (fs.flatMap (Entry.events env))) :=
    (hperm.flatMap_right _).filterMap _
  rw [emissionEvents_eq_flatMap_of_isNumber hdoc hlimit]
  exact hsame.mem_iff.mp (Entries.mem_of_lookup hkept)

/-- What is held under a name in one order is held under it in every order, if not with the same
text. Then that other order has recorded that the name collides. -/
theorem held_of_perm (hlimit : r.issues.limit.isNumber = true) (hperm : es.Perm fs)
    {name text : String}
    (hkept : (runAll (emitEntry env) es r).2.registry.lookup name = some text) :
    (runAll (emitEntry env) fs r).2.registry.lookup name = some text ∨
      ((runAll (emitEntry env) fs r).2.registry.lookup name).isSome ∧
        ⟨"", .duplicateName name⟩ ∈ r.recorded (emissionEvents env fs r) := by
  cases hheld : r.registry.lookup name with
  | some old =>
    left
    rw [lookup_registry_emission hdoc hlimit, hheld] at hkept ⊢
    exact hkept
  | none =>
    have hmem := mem_registrations_of_kept hdoc hlimit hperm hheld hkept
    rw [run_emission fs]
    by_cases hsame : (r.applyAll (emissionEvents env fs r)).registry.lookup name = some text
    · exact .inl hsame
    · exact .inr ⟨Run.isSome_lookup_registry_applyAll hmem r,
        Run.duplicateName_mem_recorded hmem hsame⟩

/-- **Collisions are resolved by the order of tasks.** Under each name a run keeps what the first
task hoists that hoists anything under it. The names that are held do not depend on the order of
the tasks, and if the text kept under a name does, both orders have recorded its collision. -/
theorem kept_texts_of_perm (hlimit : r.issues.limit.isNumber = true) (hperm : es.Perm fs)
    (name : String) :
    (∀ tasks : List Entry, (runAll (emitEntry env) tasks r).2.registry.lookup name =
      (r.registry.lookup name).or (tasks.findSome? (Entry.hoists? env name))) ∧
    (name ∈ Entries.names (runAll (emitEntry env) es r).2.registry ↔
      name ∈ Entries.names (runAll (emitEntry env) fs r).2.registry) ∧
    ((runAll (emitEntry env) es r).2.registry.lookup name ≠
        (runAll (emitEntry env) fs r).2.registry.lookup name →
      ⟨"", .duplicateName name⟩ ∈ r.recorded (emissionEvents env es r) ∧
        ⟨"", .duplicateName name⟩ ∈ r.recorded (emissionEvents env fs r)) := by
  have hheld : ∀ {one other : List Entry}, one.Perm other →
      ((runAll (emitEntry env) one r).2.registry.lookup name).isSome →
      ((runAll (emitEntry env) other r).2.registry.lookup name).isSome := by
    intro one other hsame hone
    obtain ⟨text, htext⟩ := Option.isSome_iff_exists.mp hone
    rcases held_of_perm hdoc hlimit hsame htext with hkept | ⟨hkept, -⟩
    · rw [hkept, Option.isSome_some]
    · exact hkept
  have hcollides : ∀ {one other : List Entry}, one.Perm other →
      (runAll (emitEntry env) one r).2.registry.lookup name ≠
        (runAll (emitEntry env) other r).2.registry.lookup name →
      ⟨"", .duplicateName name⟩ ∈ r.recorded (emissionEvents env other r) := by
    intro one other hsame hne
    cases hone : (runAll (emitEntry env) one r).2.registry.lookup name with
    | none =>
      have hother := mt (hheld hsame.symm) (by simp [hone])
      rw [Option.not_isSome_iff_eq_none] at hother
      exact absurd (hone.trans hother.symm) hne
    | some text =>
      rcases held_of_perm hdoc hlimit hsame hone with hkept | ⟨-, hrecorded⟩
      · exact absurd (hone.trans hkept.symm) hne
      · exact hrecorded
  refine ⟨fun tasks ↦ lookup_registry_emission hdoc hlimit tasks name, ?_, fun hne ↦ ?_⟩
  · rw [← Entries.isSome_lookup_iff, ← Entries.isSome_lookup_iff]
    exact ⟨hheld hperm, hheld hperm.symm⟩
  · exact ⟨hcollides hperm.symm hne.symm, hcollides hperm hne⟩

omit hdoc

/-- An object with one property, which is a text or an integer of a format. -/
def textOrInteger (property format : String) : Schema :=
  .node { Schema.Keywords.blank 1 with types := ["object"], required := [.text property] }
    [(property, .node (.blank 2) [] none []
      [.leaf { Schema.Keywords.blank 3 with types := ["string"] },
        .leaf { Schema.Keywords.blank 4 with types := ["integer"], format := .text format }]
      [] none)]
    none [] [] [] none

/-- The entries of two schemas that hoist different variants under one name. -/
def rivals : List Entry :=
  [⟨"Guild", textOrInteger "member_role" "int32"⟩, ⟨"GuildMember", textOrInteger "role" "int64"⟩]

/-- The document of these entries. -/
def rivalDocument : Document where
  schemas := rivals.map fun e ↦ (e.name, e.schema)
  responses := []

theorem entries_rivalDocument : (entries (plainEnvironment rivalDocument) []).1 = rivals := by rfl

/-- Which variant the two schemas leave under the name depends on which of them comes first. -/
theorem lookup_registry_rivals :
    (runAll (emitEntry (plainEnvironment rivalDocument)) rivals
        (.start (.int 10))).2.registry.lookup "GuildMemberRoleInteger" ≠
      (runAll (emitEntry (plainEnvironment rivalDocument)) rivals.reverse
        (.start (.int 10))).2.registry.lookup "GuildMemberRoleInteger" := by
  rw [lookup_registry_emission rfl rfl, lookup_registry_emission rfl rfl]
  decide +kernel

/-- **The texts that are kept depend on the order of tasks**: run in the order of their names and
the other way round, the entries of a document do not leave the same texts. -/
theorem kept_texts_ne_of_reversed :
    ¬ ∀ name, (runAll (emitEntry (plainEnvironment rivalDocument))
        (entries (plainEnvironment rivalDocument) []).1
        (.start (.int 10))).2.registry.lookup name =
      (runAll (emitEntry (plainEnvironment rivalDocument))
        (entries (plainEnvironment rivalDocument) []).1.reverse
        (.start (.int 10))).2.registry.lookup name := by
  rw [entries_rivalDocument]
  exact fun h ↦ lookup_registry_rivals (h "GuildMemberRoleInteger")

/-- Both orders of the two schemas hold a variant of that name, and both have recorded a collision.
-/
theorem kept_texts_of_perm_rivals :
    rivals.Perm rivals.reverse ∧
    (runAll (emitEntry (plainEnvironment rivalDocument)) rivals
        (.start (.int 10))).2.registry.lookup "GuildMemberRoleInteger" ≠
      (runAll (emitEntry (plainEnvironment rivalDocument)) rivals.reverse
        (.start (.int 10))).2.registry.lookup "GuildMemberRoleInteger" ∧
    ⟨"", .duplicateName "GuildMemberRoleInteger"⟩ ∈ (Run.start (.int 10)).recorded
      (emissionEvents (plainEnvironment rivalDocument) rivals (.start (.int 10))) ∧
    ⟨"", .duplicateName "GuildMemberRoleInteger"⟩ ∈ (Run.start (.int 10)).recorded
      (emissionEvents (plainEnvironment rivalDocument) rivals.reverse (.start (.int 10))) := by
  have hdoc : (plainEnvironment rivalDocument).options.docComments = false := rfl
  have hlimit : (Run.start (.int 10)).issues.limit.isNumber = true := rfl
  have hperm : rivals.Perm rivals.reverse := (List.reverse_perm _).symm
  have hkept := kept_texts_of_perm hdoc hlimit hperm "GuildMemberRoleInteger"
  exact ⟨hperm, lookup_registry_rivals, hkept.2.2 lookup_registry_rivals⟩

end Generation

end SchemaTypes
