import SchemaTypes.Proofs.Run.Collection
import SchemaTypes.Proofs.Text.Order
import SchemaTypes.Run.Schedule

/-!
# Schedules and their results

A schedule is determined by the turns its tasks get: which task runs, and the state it finds. What
comes of a schedule is a function of the outcomes of its turns.

A task whose text is not among the results has failed, so that no more texts are missing than there
are failures (`length_missing_le`). Where no task fails and all have different names, the results
are the texts of all tasks, and the order of the tasks does not show (`results_eq_sortByName`).
-/

namespace SchemaTypes.Schedule

open Event

/-! ## Turns -/

section Turns

variable {σ τ : Type} (run : τ → σ → Outcome × σ)

/-- Tasks that run in turn, each with the state that it finds. -/
def turns : List τ → σ → List (τ × σ)
  | [], _ => []
  | task :: rest, state => (task, state) :: turns rest (run task state).2

theorem map_fst_turns (tasks : List τ) (state : σ) :
    (turns run tasks state).map Prod.fst = tasks := by
  induction tasks generalizing state with
  | nil => rfl
  | cons task rest ih => rw [turns, List.map_cons, ih]

/-- Each outcome is that of a task in its turn. -/
theorem runAll_fst (tasks : List τ) (state : σ) :
    (runAll run tasks state).1 = (turns run tasks state).map fun t ↦ (run t.1 t.2).1 := by
  induction tasks generalizing state with
  | nil => rfl
  | cons task rest ih => rw [runAll, turns, List.map_cons, ← ih]

/-- Tasks that run alike have the same outcomes and leave the same state. -/
theorem runAll_map {τ' : Type} {run' : τ' → σ → Outcome × σ} {f : τ → τ'} {tasks : List τ}
    (h : ∀ task ∈ tasks, run' (f task) = run task) (state : σ) :
    runAll run' (tasks.map f) state = runAll run tasks state := by
  induction tasks generalizing state with
  | nil => rfl
  | cons task rest ih =>
    have hrest := ih fun other hother ↦ h other (List.mem_cons_of_mem _ hother)
    rw [List.map_cons, runAll, runAll, h task List.mem_cons_self]
    simp only [hrest]

end Turns

/-! ## Workers -/

/-- There are workers for any tasks where their limit is void or a number. -/
theorem exists_startLog_eq_ok_of_void_or_number {w : Json}
    (h : w.isVoid = true ∨ w.isNumber = true) (tasks : Nat) :
    ∃ log, startLog w tasks = .ok log := by
  obtain ⟨count, hcount⟩ : ∃ count, workers w tasks = .ok count := by
    unfold workers
    by_cases hvoid : w.isVoid = true
    · exact ⟨_, if_pos hvoid⟩
    · rw [if_neg hvoid]
      cases w with
      | real x =>
        unfold workersUpTo
        dsimp only
        split <;> exact ⟨_, rfl⟩
      | bool b => exact ⟨_, rfl⟩
      | int k => exact ⟨_, rfl⟩
      | _ => exact absurd (h.resolve_left hvoid) nofun
  unfold startLog
  split
  · exact ⟨_, rfl⟩
  · rw [hcount]
    exact ⟨_, rfl⟩

/-! ## Failures -/

variable {outcomes : List Outcome}

theorem failures_cons (o : Outcome) (rest : List Outcome) :
    failures (o :: rest) =
      (o.failure.map fun reason ↦ (⟨o.name, .taskFailed reason⟩ : Issue)).toList ++
        failures rest := by
  cases h : o.failure <;> simp [failures, h]

theorem length_failures :
    (failures outcomes).length = (outcomes.filter fun o ↦ o.failure.isSome).length := by
  induction outcomes with
  | nil => rfl
  | cons o rest ih => cases h : o.failure <;> simp [failures_cons, h, ih]

theorem failures_eq_nil_iff : failures outcomes = [] ↔ ∀ o ∈ outcomes, o.failure = none := by
  rw [← List.length_eq_zero_iff, length_failures, List.length_eq_zero_iff, List.filter_eq_nil_iff]
  simp

/-- Each failure is reported, and nothing else. -/
theorem reports_failureEvents : reports (failureEvents outcomes) = failures outcomes := by
  rw [failureEvents]
  induction failures outcomes with
  | nil => rfl
  | cons issue rest ih => simp [report?, ih]

theorem registrations_failureEvents : registrations (failureEvents outcomes) = [] := by
  rw [failureEvents]
  induction failures outcomes with
  | nil => rfl
  | cons issue rest ih => simp [registration?, ih]

/-! ## Results -/

theorem nodup_eraseDups (names : List String) : names.eraseDups.Nodup := by
  match names with
  | [] => exact List.nodup_nil
  | name :: rest =>
    rw [List.eraseDups_cons, List.nodup_cons, List.mem_eraseDups]
    exact ⟨by simp, nodup_eraseDups _⟩
termination_by names.length
decreasing_by exact Nat.lt_succ_of_le (List.length_filter_le _ _)

theorem eraseDups_eq_self {names : List String} (h : names.Nodup) : names.eraseDups = names := by
  induction names with
  | nil => rfl
  | cons name rest ih =>
    obtain ⟨hname, hrest⟩ := List.nodup_cons.mp h
    have hkeep : rest.filter (fun other ↦ !other == name) = rest := by
      rw [List.filter_eq_self]
      intro other hother
      have hne : other ≠ name := by
        rintro rfl
        exact hname hother
      simpa using hne
    rw [List.eraseDups_cons, hkeep, ih hrest]

/-- The results are the names that are kept, each with all that was written under it. -/
theorem mem_results {name text : String} : (name, text) ∈ results outcomes ↔
    (name ∈ outcomes.map Outcome.name ∧ isKept name outcomes = true) ∧
      text = writtenUnder name outcomes := by
  rw [results, Text.mem_sortByName, List.mem_map]
  constructor
  · rintro ⟨_, hkept, ⟨⟩⟩
    rw [List.mem_filter, List.mem_eraseDups] at hkept
    exact ⟨hkept, rfl⟩
  · rintro ⟨⟨hname, hkept⟩, rfl⟩
    exact ⟨name, List.mem_filter.mpr ⟨List.mem_eraseDups.mpr hname, hkept⟩, rfl⟩

theorem mem_names_results {name : String} :
    name ∈ Entries.names (results outcomes) ↔
      name ∈ outcomes.map Outcome.name ∧ isKept name outcomes = true := by
  rw [results, (Text.names_sortByName_perm _).mem_iff, Entries.names, List.map_map]
  simp

/-- No name has two texts among the results. -/
theorem nodup_names_results : (Entries.names (results outcomes)).Nodup := by
  rw [results, (Text.names_sortByName_perm _).nodup_iff, Entries.names, List.map_map]
  have hid : ((Prod.fst : String × String → String) ∘ fun name ↦ (name, writtenUnder name outcomes))
      = id := rfl
  rw [hid, List.map_id]
  exact (nodup_eraseDups _).filter _

theorem pairwise_results : (results outcomes).Pairwise fun a b ↦ a.1 ≤ b.1 :=
  Text.pairwise_sortByName _

/-- **A text that is missing among the results is that of a failure.** -/
theorem length_missing_le :
    (outcomes.filter fun o ↦ decide (o.name ∉ Entries.names (results outcomes))).length ≤
      (failures outcomes).length := by
  rw [length_failures, ← List.countP_eq_length_filter, ← List.countP_eq_length_filter]
  refine List.countP_mono_left fun o ho hmissing ↦ ?_
  have hname : o.name ∈ outcomes.map Outcome.name := List.mem_map_of_mem ho
  have hkept : ¬ isKept o.name outcomes = true := by
    intro hkept
    exact of_decide_eq_true hmissing (mem_names_results.mpr ⟨hname, hkept⟩)
  rw [isKept, Bool.or_eq_true, not_or, List.any_eq_true] at hkept
  cases hfailure : o.failure with
  | none => exact absurd ⟨o, ho, by simp [hfailure]⟩ hkept.1
  | some reason => rfl

/-- Where names are distinct, all that is written under the name of a task is what it writes. -/
theorem writtenUnder_eq (hnodup : (outcomes.map Outcome.name).Nodup) {o : Outcome}
    (ho : o ∈ outcomes) : writtenUnder o.name outcomes = o.written := by
  have hsingle : outcomes.filter (fun other ↦ other.name == o.name) = [o] := by
    obtain ⟨before, after, rfl⟩ := List.append_of_mem ho
    rw [List.map_append, List.map_cons, List.nodup_append, List.nodup_cons] at hnodup
    obtain ⟨-, ⟨hafter, -⟩, hbefore⟩ := hnodup
    have hnone : ∀ other ∈ before ++ after, ¬ (other.name == o.name) = true := by
      intro other hother heq
      rw [beq_iff_eq] at heq
      rcases List.mem_append.mp hother with h | h
      · exact hbefore _ (List.mem_map_of_mem h) _ List.mem_cons_self heq
      · exact hafter (heq ▸ List.mem_map_of_mem h)
    rw [List.filter_append, List.filter_cons_of_pos (by simp),
      List.filter_eq_nil_iff.mpr fun other h ↦ hnone other (List.mem_append_left _ h),
      List.filter_eq_nil_iff.mpr fun other h ↦ hnone other (List.mem_append_right _ h),
      List.nil_append]
  rw [writtenUnder, hsingle]
  simp

/-- Where names are distinct, a result is of one task, which wrote something or succeeded. -/
theorem exists_of_mem_results (hnodup : (outcomes.map Outcome.name).Nodup) {d : String × String}
    (hd : d ∈ results outcomes) :
    ∃ o ∈ outcomes, d = (o.name, o.written) ∧ (o.failure = none ∨ o.written ≠ "") := by
  obtain ⟨name, text⟩ := d
  obtain ⟨⟨hname, hkept⟩, rfl⟩ := mem_results.mp hd
  obtain ⟨o, ho, rfl⟩ := List.mem_map.mp hname
  refine ⟨o, ho, by rw [writtenUnder_eq hnodup ho], ?_⟩
  rw [isKept, writtenUnder_eq hnodup ho, Bool.or_eq_true, List.any_eq_true] at hkept
  rcases hkept with ⟨other, hother, hsuccess⟩ | hwritten
  · rw [Bool.and_eq_true, beq_iff_eq, Option.isNone_iff_eq_none] at hsuccess
    obtain rfl := List.inj_on_of_nodup_map hnodup hother ho hsuccess.1
    exact .inl hsuccess.2
  · exact .inr (by simpa using hwritten)

/-- **Without failures the results are the texts of all tasks.** -/
theorem results_eq_sortByName (hnodup : (outcomes.map Outcome.name).Nodup)
    (hok : ∀ o ∈ outcomes, o.failure = none) :
    results outcomes = Text.sortByName (outcomes.map fun o ↦ (o.name, o.written)) := by
  have hkept : (outcomes.map Outcome.name).filter (fun name ↦ isKept name outcomes) =
      outcomes.map Outcome.name := by
    rw [List.filter_eq_self]
    intro name hname
    obtain ⟨o, ho, rfl⟩ := List.mem_map.mp hname
    rw [isKept, Bool.or_eq_true, List.any_eq_true]
    exact .inl ⟨o, ho, by simp [hok o ho]⟩
  rw [results, eraseDups_eq_self hnodup, hkept, List.map_map]
  refine congrArg Text.sortByName (List.map_congr_left fun o ho ↦ ?_)
  rw [Function.comp_apply, writtenUnder_eq hnodup ho]

end SchemaTypes.Schedule
