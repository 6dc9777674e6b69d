import Mathlib.Algebra.Order.Ring.Rat
import Mathlib.Data.Fintype.List
import Mathlib.Data.List.FinRange
import SchemaTypes.Proofs.DocTable.History
import SchemaTypes.Proofs.DocTable.Textual

/-!
# The ranking of tables

A search compares an object with every table and keeps a few of the best. What that selection is
can be said without saying how it is made: places of tables, a better one always before a worse one
and an earlier one before a later one of the same score, such that no table left out would deserve a
place (`IsRanking`). There is only one such list (`IsRanking.eq`), and it is what a search finds
(`search_ranks`).

Tables are told apart by their places and not by what they say, since a documentation may hold the
same table twice.

The selection sorts all tables that pass the threshold and takes the first ones. That tables with
one score keep their order is what sorting by insertion does (`pairwise_sorted_stable`).
-/

namespace SchemaTypes

namespace Correlator

/-! ## What a ranking is -/

section Ranking

variable {n : Nat} (score : Fin n → Rat)

/-- Whether a place comes before another one: its score is higher, or the same and it stands first.
-/
def Outranks (i j : Fin n) : Prop := score j < score i ∨ score i = score j ∧ i < j

/-- The places with the best scores, of which there are at most `limit` and none below `least`. -/
structure IsRanking (limit : Nat) (least : Rat) (chosen : List (Fin n)) : Prop where
  /-- There are not more than asked for. -/
  length_le : chosen.length ≤ limit
  /-- No place is chosen twice. -/
  nodup : chosen.Nodup
  /-- No score is too low. -/
  least_le : ∀ i ∈ chosen, least ≤ score i
  /-- The best come first. -/
  ordered : chosen.Pairwise (Outranks score)
  /-- What is left out has too low a score, or the list is full and its last place is better. -/
  left_out : ∀ i ∉ chosen, score i < least ∨
    chosen.length = limit ∧ ∃ last ∈ chosen.getLast?, Outranks score last i

variable {score} {limit : Nat} {least : Rat} {chosen other : List (Fin n)} {i j k : Fin n}

theorem Outranks.trans (hij : Outranks score i j) (hjk : Outranks score j k) :
    Outranks score i k := by
  rcases hij with hij | ⟨hij, hlt⟩ <;> rcases hjk with hjk | ⟨hjk, hlt'⟩
  · exact .inl (hjk.trans hij)
  · exact .inl (hjk ▸ hij)
  · exact .inl (hij ▸ hjk)
  · exact .inr ⟨hij.trans hjk, hlt.trans hlt'⟩

theorem Outranks.asymm (hij : Outranks score i j) : ¬ Outranks score j i := by
  rintro (hji | ⟨hji, hlt'⟩) <;> rcases hij with hij | ⟨hij, hlt⟩
  · exact lt_asymm hij hji
  · exact hji.ne hij
  · exact hij.ne hji
  · exact lt_asymm hlt hlt'

/-- Every chosen place outranks what was left out although its score is high enough. -/
theorem IsRanking.outranks (h : IsRanking score limit least chosen) (hi : i ∉ chosen)
    (hleast : least ≤ score i) (hj : j ∈ chosen) : Outranks score j i := by
  obtain ⟨-, last, hlast, hrank⟩ := (h.left_out i hi).resolve_left (not_lt.mpr hleast)
  obtain ⟨front, rfl⟩ := List.getLast?_eq_some_iff.mp hlast
  rcases List.mem_append.mp hj with hfront | hsingle
  · obtain ⟨-, -, hbefore⟩ := List.pairwise_append.mp h.ordered
    exact (hbefore j hfront last (List.mem_singleton_self last)).trans hrank
  · rwa [List.mem_singleton.mp hsingle]

/-- Of two rankings neither holds a place that the other one leaves out. -/
theorem IsRanking.subset (h : IsRanking score limit least chosen)
    (hother : IsRanking score limit least other) : chosen ⊆ other := by
  intro i hi
  by_contra hiother
  have hleast := h.least_le i hi
  have hfull := ((hother.left_out i hiother).resolve_left (not_lt.mpr hleast)).1
  -- The other list is full and lacks `i`, so that it holds a place that this one lacks.
  obtain ⟨j, hj, hjchosen⟩ : ∃ j ∈ other, j ∉ chosen := by
    by_contra! hall
    have hcons : (i :: other).Nodup := List.nodup_cons.mpr ⟨hiother, hother.nodup⟩
    have hsub : i :: other ⊆ chosen := List.cons_subset.mpr ⟨hi, hall⟩
    have hle := (hcons.subperm hsub).length_le
    have := h.length_le
    rw [List.length_cons] at hle
    omega
  exact (h.outranks hjchosen (hother.least_le j hj) hi).asymm
    (hother.outranks hiother hleast hj)

/-- **There is one ranking only.** -/
theorem IsRanking.eq (h : IsRanking score limit least chosen)
    (hother : IsRanking score limit least other) : chosen = other := by
  have hperm : chosen.Perm other :=
    (List.perm_ext_iff_of_nodup h.nodup hother.nodup).mpr fun _ ↦
      ⟨fun hi ↦ h.subset hother hi, fun hi ↦ hother.subset h hi⟩
  exact hperm.eq_of_pairwise (fun _ _ _ _ hij hji ↦ absurd hji hij.asymm) h.ordered hother.ordered

/-! ## The selection is a ranking -/

variable (score least) in
/-- The places that pass, the best first. -/
def passing : List (Fin n) :=
  sorted (fun i j ↦ score j ≤ score i) ((List.finRange n).filter fun i ↦ least ≤ score i)

variable (score limit least) in
/-- The first of the places that pass. -/
def ranking : List (Fin n) := (passing score least).take limit

theorem mem_passing : i ∈ passing score least ↔ least ≤ score i := by
  rw [passing, mem_sorted, List.mem_filter, decide_eq_true_iff]
  exact and_iff_right (List.mem_finRange i)

theorem nodup_passing : (passing score least).Nodup := by
  rw [passing, (sorted_perm _ _).nodup_iff]
  exact (List.nodup_finRange n).filter _

theorem pairwise_passing : (passing score least).Pairwise (Outranks score) := by
  have hplaces : ((List.finRange n).filter fun i ↦ least ≤ score i).Pairwise (· < ·) :=
    (List.pairwise_lt_finRange n).filter _
  refine (pairwise_sorted_stable ?_ ?_ hplaces).imp ?_
  · intro i j k hij hjk
    rw [decide_eq_true_iff] at hij hjk ⊢
    exact hjk.trans hij
  · intro i j
    rw [decide_eq_true_iff, decide_eq_true_iff]
    exact le_total (score j) (score i)
  · rintro i j ⟨hle, htie⟩
    rw [decide_eq_true_iff] at hle htie
    rcases hle.lt_or_eq with hlt | heq
    · exact .inl hlt
    · exact .inr ⟨heq.symm, htie heq.ge⟩

/-- What is in order and not among the first places stands behind a full list of places. -/
theorem exists_getLast?_take {rank : Fin n → Fin n → Prop} {xs : List (Fin n)}
    (h : xs.Pairwise rank) (hlimit : 0 < limit) (hi : i ∈ xs) (hout : i ∉ xs.take limit) :
    (xs.take limit).length = limit ∧ ∃ last ∈ (xs.take limit).getLast?, rank last i := by
  have hsplit : xs.take limit ++ xs.drop limit = xs := List.take_append_drop limit xs
  rw [← hsplit] at h hi
  have hbehind : i ∈ xs.drop limit := (List.mem_append.mp hi).resolve_left hout
  have hlong : limit < xs.length := by
    have hpos := List.length_pos_of_mem hbehind
    rw [List.length_drop] at hpos
    omega
  have hfull : (xs.take limit).length = limit := List.length_take_of_le hlong.le
  have hne : xs.take limit ≠ [] := List.ne_nil_of_length_pos (hlimit.trans_eq hfull.symm)
  exact ⟨hfull, _, List.getLast?_eq_some_getLast hne,
    (List.pairwise_append.mp h).2.2 _ (List.getLast_mem hne) i hbehind⟩

/-- Sorting what passes and taking the first places gives the ranking. -/
theorem isRanking_ranking (hlimit : 0 < limit) :
    IsRanking score limit least (ranking score limit least) where
  length_le := List.length_take_le _ _
  nodup := nodup_passing.sublist (List.take_sublist _ _)
  least_le i hi := mem_passing.mp (List.mem_of_mem_take hi)
  ordered := pairwise_passing.sublist (List.take_sublist _ _)
  left_out i hi := by
    rcases lt_or_ge (score i) least with hlow | hleast
    · exact .inl hlow
    · exact .inr (exists_getLast?_take pairwise_passing hlimit (mem_passing.mpr hleast) hi)

example : ranking [4, 6, 9, 6, 5].get 3 5 = [2, 1, 3] := by decide +kernel

end Ranking

/-! ## Searches -/

/-- The best of some candidates are those at the places of the ranking. -/
theorem best_map {n : Nat} (table : Fin n → DocTable) (score : Fin n → Rat) :
    best ((List.finRange n).map fun i ↦ ⟨table i, score i⟩) =
      (ranking score candidateLimit threshold).map fun i ↦ ⟨table i, score i⟩ := by
  rw [best, List.filter_map, sorted_map, ← List.map_take]
  rfl

variable {tables : List DocTable} {c : Correlator}

/-- A correlator holds the tables it was made of, each with the form in which it is compared. -/
theorem exists_forms_of_ofTables (h : ofTables tables = .ok c) :
    ∃ form : Fin tables.length → FieldTable,
      (∀ i : Fin tables.length, tables[i].fieldTable = .ok (form i)) ∧
        c.tables = (List.finRange tables.length).map fun i ↦ (tables[i], form i) := by
  obtain ⟨prepared, hprepared, hc⟩ := exists_of_bind_eq_ok h
  cases hc
  obtain ⟨hlength, hget⟩ := List.forall₂_iff_get.mp (forall₂_of_mapM_eq_ok hprepared)
  have hform : ∀ i : Fin tables.length, ∃ form, tables[i].fieldTable = .ok form ∧
      prepared.get ⟨i.1, hlength ▸ i.2⟩ = (tables[i], form) := by
    intro i
    obtain ⟨form, hform, hpair⟩ := exists_of_bind_eq_ok (hget i.1 i.2 (hlength ▸ i.2))
    exact ⟨form, hform, (Except.ok.inj hpair).symm⟩
  choose form hform hpair using hform
  refine ⟨form, hform, List.ext_getElem (by simp [hlength]) fun i hi _ ↦ ?_⟩
  rw [List.getElem_map, List.getElem_finRange]
  exact hpair ⟨i, hlength ▸ hi⟩

variable {resolve : Schema → Except Mismatch Schema} {memory : Memory} {s : Schema}

/-- **A search finds the best tables.** Asked for a schema whose shape is not remembered and whose
properties can be resolved, a correlator finds the tables at the places of the ranking, each with
its score: at most five, none that scores below five. -/
theorem search_ranks (htables : ofTables tables = .ok c)
    (hnew : memory.lookup s.canonicalText = none)
    (hresolve : ∀ p ∈ s.properties, ∃ target, resolve p.2 = .ok target) (path : Path) :
    ∃ (object : FieldTable) (form : Fin tables.length → FieldTable) (found : Finding),
      describe resolve path s = .ok object ∧
      (∀ i : Fin tables.length, tables[i].fieldTable = .ok (form i)) ∧
      c.search resolve memory path s = .ok found ∧
      ∃! chosen : List (Fin tables.length),
        IsRanking (fun i ↦ Likelihood.object Number.roundRat object (form i)) 5 5 chosen ∧
        found.candidates = chosen.map fun i ↦
          ⟨tables[i], Likelihood.object Number.roundRat object (form i)⟩ := by
  obtain ⟨object, hobject⟩ := exists_describe_eq_ok hresolve path
  obtain ⟨form, hform, hprepared⟩ := exists_forms_of_ofTables htables
  set score := fun i ↦ Likelihood.object Number.roundRat object (form i)
  have hranking : IsRanking score 5 5 (ranking score 5 5) := isRanking_ranking (by decide)
  have hbest : best (c.scored Number.roundRat object) =
      (ranking score 5 5).map fun i ↦ ⟨tables[i], score i⟩ := by
    rw [scored, hprepared, List.map_map]
    exact best_map (fun i ↦ tables[i]) score
  refine ⟨object, form, _, hobject, hform, by rw [search, hnew, hobject]; rfl, _,
    ⟨hranking, hbest⟩, fun other hother ↦ hother.1.eq hranking⟩

/-- Seven tables, of which the first is about something else and all others are the same one. -/
def repeatedTables : List DocTable :=
  ⟨[.text "Size"], .text "", [⟨.text "size", .text "integer", .text ""⟩], ⟨"", 0⟩⟩ ::
    List.replicate 6 webhookTable.1

theorem search_ranks_repeated :
    ∃ c, ofTables repeatedTables = .ok c ∧
      ([] : Memory).lookup (webhookSchema 1).canonicalText = none ∧
      (∀ p ∈ (webhookSchema 1).properties,
        ∃ target, (.ok p.2 : Except Mismatch Schema) = .ok target) ∧
      ∃ (object : FieldTable) (form : Fin repeatedTables.length → FieldTable) (found : Finding),
        describe .ok (.ofRoot "Webhook") (webhookSchema 1) = .ok object ∧
        (∀ i : Fin repeatedTables.length, repeatedTables[i].fieldTable = .ok (form i)) ∧
        c.search .ok [] (.ofRoot "Webhook") (webhookSchema 1) = .ok found ∧
        ∃! chosen : List (Fin repeatedTables.length),
          IsRanking (fun i ↦ Likelihood.object Number.roundRat object (form i)) 5 5 chosen ∧
          found.candidates = chosen.map fun i ↦
            ⟨repeatedTables[i], Likelihood.object Number.roundRat object (form i)⟩ :=
  ⟨_, rfl, rfl, fun p _ ↦ ⟨p.2, rfl⟩, search_ranks rfl rfl (fun p _ ↦ ⟨p.2, rfl⟩) _⟩

end Correlator

end SchemaTypes
