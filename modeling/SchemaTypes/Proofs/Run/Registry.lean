import Mathlib.Data.List.DropRight
import SchemaTypes.Proofs.Run.Collection
import SchemaTypes.Proofs.Text.Order

/-!
# The registry and its issues over time

A registry is worked with by three operations: a declaration is registered, a name is discarded, an
issue is reported. What a run shows after any number of them can be said with their history alone.
Under a name it keeps the first text registered since the name was last discarded (`kept?`). A
registration of another text than that is refused and leads to an issue, as a report does
(`issueAfter`). All issues are counted and the first ones are kept, as many as the limit says
(`registry_account`).

A refusal does not change what is kept, so that the history need not tell which registrations were
refused: that follows from it. The invariant is that a run accounts for its history (`Accounts`);
one more operation keeps it (`Accounts.operate`).
-/

namespace SchemaTypes

namespace Run

open Event

/-! ## Operations -/

/-- What is done to the registry of a run and its issues. -/
inductive Operation where
  | register (name text : String)
  | discard (name : String)
  | report (issue : Issue)

namespace Operation

/-- The text that an operation registers under a name. -/
def textFor? (name : String) : Operation → Option String
  | register n text => if name = n then some text else none
  | _ => none

/-- Whether an operation takes a name out of the registry. -/
def discards (name : String) : Operation → Bool
  | discard n => name == n
  | _ => false

/-- Whether an operation reports an issue. -/
def isReport : Operation → Bool
  | report _ => true
  | _ => false

variable {name : String}

@[simp] theorem textFor?_register (n text : String) :
    (register n text).textFor? name = if name = n then some text else none := rfl

@[simp] theorem textFor?_discard (n : String) : (discard n).textFor? name = none := rfl

@[simp] theorem textFor?_report (issue : Issue) : (report issue).textFor? name = none := rfl

@[simp] theorem discards_register (n text : String) : (register n text).discards name = false := rfl

@[simp] theorem discards_discard (n : String) : (discard n).discards name = (name == n) := rfl

@[simp] theorem discards_report (issue : Issue) : (report issue).discards name = false := rfl

end Operation

/-- The run behind an operation. -/
def operate (r : Run) : Operation → Run
  | .register name text => (r.register name text).2
  | .discard name => r.discard name
  | .report issue => r.report issue

/-- The run behind operations in turn. -/
def operateAll (r : Run) (ops : List Operation) : Run := ops.foldl operate r

/-- The answer to an operation; only registrations are answered. -/
def answer? (r : Run) : Operation → Option Bool
  | .register name text => some (r.register name text).1
  | _ => none

/-- The answers to operations in turn. -/
def answers (r : Run) : List Operation → List Bool
  | [] => []
  | op :: rest => (r.answer? op).toList ++ (r.operate op).answers rest

/-! ## What a history says -/

/-- The text kept under a name: the first one registered since the name was last discarded. -/
def kept? (history : List Operation) (name : String) : Option String :=
  (history.rtakeWhile fun op ↦ !op.discards name).findSome? (Operation.textFor? name)

/-- The issue that an operation leads to: one that is reported, or a text that is not the one kept.
-/
def issueAfter (history : List Operation) : Operation → Option Issue
  | .report issue => some issue
  | .register name text =>
    if (kept? history name).any (· != text) then some ⟨"", .duplicateName name⟩ else none
  | .discard _ => none

/-- The issues that operations lead to behind a history, in order. -/
def issuesAfter (history : List Operation) : List Operation → List Issue
  | [] => []
  | op :: rest => (issueAfter history op).toList ++ issuesAfter (history ++ [op]) rest

variable {history ops : List Operation} {name : String}

theorem kept?_concat (op : Operation) : kept? (history ++ [op]) name =
    if op.discards name then none else (kept? history name).or (op.textFor? name) := by
  cases h : op.discards name <;> simp [kept?, h, List.findSome?_append]

theorem issuesAfter_concat (history ops : List Operation) (op : Operation) :
    issuesAfter history (ops ++ [op]) =
      issuesAfter history ops ++ (issueAfter (history ++ ops) op).toList := by
  induction ops generalizing history with
  | nil => simp [issuesAfter]
  | cons first rest ih => simp [issuesAfter, ih]

/-! ## One operation -/

variable {r : Run}

/-- A registration is refused exactly if another text is held. -/
theorem register_fst (r : Run) (name text : String) :
    (r.register name text).1 = !(r.registry.lookup name).any (· != text) := by
  unfold register
  cases r.registry.lookup name with
  | none => rfl
  | some held => by_cases h : held = text <;> simp [h]

/-- A registration is an event of a run. -/
theorem operate_register (r : Run) (name text : String) :
    r.operate (.register name text) = r.apply (.register name text) := rfl

theorem lookup_registry_operate (r : Run) (op : Operation) :
    (r.operate op).registry.lookup name =
      if op.discards name then none else (r.registry.lookup name).or (op.textFor? name) := by
  cases op with
  | register n text =>
    rw [operate_register, lookup_registry_apply, registration?, Option.toList_some,
      Entries.lookup_cons_eq_ite]
    simp
  | discard n =>
    rw [operate, discard, Entries.lookup_erase]
    simp
  | report issue => simp [operate, report, note]

theorem nodup_names_registry_operate (h : (Entries.names r.registry).Nodup) (op : Operation) :
    (Entries.names (r.operate op).registry).Nodup := by
  cases op with
  | register name text => exact nodup_names_registry_apply h (.register name text)
  | discard name => exact h.sublist (List.filter_sublist.map _)
  | report issue => exact h

/-- An operation adds the issue it leads to, where the registry holds what the history says. -/
theorem issues_operate (h : ∀ name, r.registry.lookup name = kept? history name)
    (op : Operation) :
    (r.operate op).issues = (issueAfter history op).toList.foldl Issues.add r.issues := by
  cases op with
  | register name text =>
    rw [operate_register, issues_apply, issue?, register_fst, h name, issueAfter]
    cases (kept? history name).any (· != text) <;> rfl
  | discard name => rfl
  | report issue => rfl

end Run

/-! ## The limit -/

/-- One more issue is kept while there is room for it. -/
theorem Issues.kept_add {i : Issues} {limit : Int} (h : i.limit = .int limit) (issue : Issue) :
    (i.add issue).kept =
      if (i.kept.length : Int) < limit then i.kept ++ [issue] else i.kept := by
  have hroom : i.hasRoom = .ok (decide ((i.kept.length : Int) < limit)) := by
    rw [hasRoom, h]
    rfl
  rw [add, hroom]
  by_cases hlt : (i.kept.length : Int) < limit <;> simp [hlt]

/-- The first issues stay the first ones when one more is kept while there is room. -/
theorem Issues.kept_add_eq_take {i : Issues} {limit : Int} (h : i.limit = .int limit)
    {all : List Issue} (hkept : i.kept = all.take (max 0 limit).toNat) (issue : Issue) :
    (i.add issue).kept = (all ++ [issue]).take (max 0 limit).toNat := by
  rw [kept_add h, hkept, List.length_take]
  split
  · next hroom => rw [List.take_of_length_le (by omega), List.take_of_length_le (by simp; omega)]
  · next hfull => rw [List.take_append_of_le_length (by omega)]

namespace Run

/-! ## Operations in turn -/

/-- A run shows what a history of operations says, where `limit` issues are kept. -/
structure Accounts (limit : Int) (history : List Operation) (r : Run) : Prop where
  lookup : ∀ name, r.registry.lookup name = kept? history name
  nodup : (Entries.names r.registry).Nodup
  limit_eq : r.issues.limit = .int limit
  count : r.issues.count = (issuesAfter [] history).length
  kept : r.issues.kept = (issuesAfter [] history).take (max 0 limit).toNat

variable {limit : Int} {history ops : List Operation} {r : Run}

theorem accounts_start (limit : Int) : Accounts limit [] (.start (.int limit)) where
  lookup _ := rfl
  nodup := .nil
  limit_eq := rfl
  count := rfl
  kept := List.take_nil.symm

/-- **One operation.** -/
theorem Accounts.operate (h : Accounts limit history r) (op : Operation) :
    Accounts limit (history ++ [op]) (r.operate op) where
  lookup name := by rw [lookup_registry_operate, h.lookup, kept?_concat]
  nodup := nodup_names_registry_operate h.nodup op
  limit_eq := by
    rw [issues_operate h.lookup]
    cases issueAfter history op <;> exact h.limit_eq
  count := by
    rw [issues_operate h.lookup, count_foldl_add, h.count, issuesAfter_concat, List.length_append,
      List.nil_append]
  kept := by
    rw [issues_operate h.lookup, issuesAfter_concat, List.nil_append]
    cases issueAfter history op with
    | none => rw [Option.toList_none, List.append_nil, List.foldl_nil, h.kept]
    | some issue => exact Issues.kept_add_eq_take h.limit_eq h.kept issue

/-- **Operations in turn.** -/
theorem Accounts.operateAll (h : Accounts limit history r) (ops : List Operation) :
    Accounts limit (history ++ ops) (r.operateAll ops) := by
  induction ops generalizing history r with
  | nil => rwa [List.append_nil]
  | cons op rest ih =>
    rw [List.append_cons]
    exact ih (h.operate op)

/-- There is one issue for each report and one for each refusal. -/
theorem Accounts.length_issuesAfter (h : Accounts limit history r) (ops : List Operation) :
    (issuesAfter history ops).length =
      ops.countP Operation.isReport + (r.answers ops).count false := by
  induction ops generalizing history r with
  | nil => rfl
  | cons op rest ih =>
    rw [issuesAfter, answers, List.length_append, ih (h.operate op), List.countP_cons,
      List.count_append]
    suffices hone : (issueAfter history op).toList.length =
        (if op.isReport then 1 else 0) + (r.answer? op).toList.count false by
      omega
    cases op with
    | register name text =>
      rw [issueAfter, answer?, register_fst, h.lookup]
      cases (kept? history name).any (· != text) <;> rfl
    | discard name => rfl
    | report issue => rfl

/-- Held names are listed as the entries are that they belong to. -/
theorem names_eq_names_items (r : Run) : r.names = Entries.names r.items :=
  sorted_map _ Prod.fst r.registry

/-- **The account of a registry.** Behind any operations a run that began with nothing shows what
their history says: which text is held under each name and which other texts would be refused, how
many issues there are and which of them are kept, and which names are held, in order. -/
theorem registry_account (limit : Int) (ops : List Operation) :
    let r := (Run.start (.int limit)).operateAll ops
    (∀ name, r.registry.lookup name = kept? ops name) ∧
      (∀ name text, (r.register name text).1 = false ↔
        ∃ kept, kept? ops name = some kept ∧ kept ≠ text) ∧
      r.issues.count =
        ops.countP Operation.isReport + ((Run.start (.int limit)).answers ops).count false ∧
      r.issues.count = (issuesAfter [] ops).length ∧
      r.issues.kept = (issuesAfter [] ops).take (max 0 limit).toNat ∧
      r.issues.obstacle? = none ∧
      (∀ name text, (name, text) ∈ r.items ↔ kept? ops name = some text) ∧
      r.names = Entries.names r.items ∧ r.names.Pairwise (· < ·) := by
  have h := (accounts_start limit).operateAll ops
  rw [List.nil_append] at h
  refine ⟨h.lookup, fun name text ↦ ?_, ?_, h.count, h.kept, ?_, fun name text ↦ ?_,
    names_eq_names_items _, ?_⟩
  · rw [register_fst, h.lookup, Bool.not_eq_false']
    cases kept? ops name <;> simp
  · rw [h.count, (accounts_start limit).length_issuesAfter]
  · rw [Issues.obstacle?, Issues.hasRoom, h.limit_eq]
    rfl
  · rw [← h.lookup, Entries.lookup_eq_some_iff_mem h.nodup]
    exact Text.mem_sortByName
  · rw [names_eq_names_items]
    refine Text.pairwise_lt_names ?_ (Text.pairwise_sortByName _)
    exact (Text.names_sortByName_perm _).nodup_iff.mpr h.nodup

/-- A name that is discarded can be registered with another text. -/
example : (Run.start (.int 1)).answers
    [.register "Guild" "string", .register "Guild" "int", .discard "Guild",
      .register "Guild" "int"] = [true, false, true] := by
  decide

end Run

end SchemaTypes
