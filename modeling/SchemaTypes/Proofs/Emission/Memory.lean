import SchemaTypes.Proofs.DocTable.Textual
import SchemaTypes.Proofs.Emission.Wording

/-!
# What emissions remember

What a search for tables finds is remembered, and told as well. So what is remembered behind an
emission was remembered before it, or the emission has told that it was learnt
(`Schema.remembers_emitNamed`), and whoever takes the events in remembers the same.

All that is found comes of the tables, so what their descriptions have in common the comments of
fields have (`Environment.documents_remarks`).
-/

namespace SchemaTypes

open Correlator

namespace Emit

variable {α : Type}

/-- What is remembered behind an emission was remembered before, or has been learnt. -/
def Remembers (x : Emit α) : Prop :=
  ∀ memory found, found ∈ (x memory).memory ↔
    found ∈ memory ∨ .learn found.1 found.2 ∈ (x memory).events

theorem remembers_search (find : Memory → Except Mismatch Finding) : Remembers (search find) := by
  intro memory found
  cases hfind : find memory with
  | error e =>
    rw [search, hfind]
    exact (or_iff_left List.not_mem_nil).symm
  | ok finding =>
    rw [search_apply_of_ok hfind, Emission.events, Act.events_map_tell, List.mem_append,
      mem_searchEvents, or_comm]
    refine or_congr_right ⟨fun hfound ↦ .inr ⟨found, hfound, rfl⟩, ?_⟩
    rintro (⟨_, -, hrecord⟩ | ⟨learnt, hlearnt, heq⟩)
    · cases hrecord
    · obtain ⟨hshape, hcandidates⟩ := Event.learn.inj heq
      rwa [← Prod.ext hshape hcandidates]

theorem remembers_closed :
    Closed (fun _ ↦ True) (fun _ ↦ True) True True Remembers where
  done _ _ _ := (or_iff_left List.not_mem_nil).symm
  fail _ _ _ _ := (or_iff_left List.not_mem_nil).symm
  write _ _ _ := (or_iff_left List.not_mem_nil).symm
  tell event hplain _ found := by
    refine (or_iff_left fun hlearn ↦ ?_).symm
    obtain rfl := List.mem_singleton.mp hlearn
    cases hplain
  mention _ _ _ _ := (or_iff_left fun hlearn ↦ by cases List.mem_singleton.mp hlearn).symm
  register _ _ _ _ _ _ := (or_iff_left fun hlearn ↦ by cases List.mem_singleton.mp hlearn).symm
  hoist _ _ _ _ _ _ := by
    refine (or_iff_left fun hlearn ↦ ?_).symm
    rcases List.mem_pair.mp hlearn with hevent | hevent <;> cases hevent
  capture {x} hx memory found := by
    have hevents : (capture x memory).events = (x memory).events := Act.events_map_tell _
    rw [hevents]
    exact hx memory found
  search find _ := remembers_search find
  bindResult {_ _ x f} hx hf memory found := by
    cases hrun : x memory with
    | mk acts later result =>
      have hfirst := hx memory found
      rw [hrun] at hfirst
      cases result with
      | error e =>
        rw [bind_apply_of_error hrun]
        exact hfirst
      | ok a =>
        have hnext := hf a memory (by rw [hrun]) later found
        rw [bind_apply_of_ok hrun, Emission.events, Act.events_append, List.mem_append, ← or_assoc]
        exact hnext.trans (or_congr_left hfirst)

end Emit

/-- What is remembered behind the declaration of a schema was remembered before, or the emission has
told that it was learnt. -/
theorem Schema.remembers_emitNamed (env : Environment) (name : String) (s : Schema) :
    Emit.Remembers (emitNamed env name s) :=
  emitNamed_closed Emit.remembers_closed (fun _ ↦ ⟨trivial, trivial⟩) (.inl trivial)
    (.everywhere env) (fun _ _ _ _ _ _ _ ↦ trivial) (fun _ _ _ _ _ ↦ ⟨trivial, trivial⟩)
    fun _ _ _ ↦ trivial

/-! ## Tables -/

/-- The comment on a field is the description in its row. -/
theorem comment_of_fieldInfo_eq_ok {row : DocTable.Row} {info : FieldInfo}
    (h : row.fieldInfo = .ok info) : info.comment = row.description := by
  obtain ⟨_, -, h⟩ := exists_of_bind_eq_ok h
  obtain ⟨_, -, h⟩ := exists_of_bind_eq_ok h
  cases h
  rfl

/-- The descriptions in a table have something in common. -/
def DocTable.Remarks (remark : String → Prop) (t : DocTable) : Prop :=
  ∀ row ∈ t.rows, ∀ text, row.description = .text text → remark text

namespace Correlator

variable {good : DocTable → Prop} {c : Correlator} {memory : Memory}

/-- Only good tables are remembered. -/
def Memory.Keeps (good : DocTable → Prop) (memory : Memory) : Prop :=
  ∀ found ∈ memory, ∀ candidate ∈ found.2, good candidate.table

/-- Prepared tables are among those that there are. -/
theorem mem_of_ofTables_eq_ok {tables : List DocTable} (h : ofTables tables = .ok c) :
    ∀ t ∈ c.tables, t.1 ∈ tables := by
  obtain ⟨forms, hforms, h⟩ := exists_of_bind_eq_ok h
  cases h
  intro form hform
  obtain ⟨t, ht, hprepared⟩ := exists_of_mem_of_mapM_eq_ok hforms form hform
  obtain ⟨_, -, hprepared⟩ := exists_of_bind_eq_ok hprepared
  cases hprepared
  exact ht

/-- All that a search finds is good if all tables are. -/
theorem of_searchFields_eq_ok (hc : ∀ t ∈ c.tables, good t.1) (hmemory : memory.Keeps good)
    {resolve : Schema → Except Mismatch Schema} {path : Path} {s : Schema} {found : Finding}
    (h : c.searchFields resolve memory path s = .ok found) :
    (∀ candidate ∈ found.candidates, good candidate.table) ∧ Memory.Keeps good found.learnt := by
  have hbest : ∀ object, ∀ candidate ∈ best (c.scored Number.roundRat object),
      good candidate.table := by
    intro object candidate hcandidate
    have hsorted := (mem_sorted _).mp (List.mem_of_mem_take hcandidate)
    obtain ⟨t, ht, rfl⟩ := List.mem_map.mp (List.mem_filter.mp hsorted).1
    exact hc t ht
  have hnil : Memory.Keeps good [] := List.forall_mem_nil _
  unfold searchFields search at h
  split at h
  · cases h
    exact ⟨List.forall_mem_nil _, hnil⟩
  split at h
  · next candidates hlookup =>
    cases h
    exact ⟨hmemory _ (Entries.mem_of_lookup hlookup), hnil⟩
  · obtain ⟨object, -, h⟩ := exists_of_bind_eq_ok h
    cases h
    exact ⟨hbest object, List.forall_mem_singleton.mpr (hbest object)⟩

/-- What the fields of good tables say. -/
theorem remarks_of_bestFields_eq_ok {remark : String → Prop} {candidates : List Candidate}
    (hcandidates : ∀ candidate ∈ candidates, candidate.table.Remarks remark)
    {documented : List (String × FieldInfo)} (h : bestFields candidates = .ok documented) :
    FieldInfo.Remarks remark documented := by
  cases candidates with
  | nil =>
    cases h
    exact fun name info hinfo ↦ by cases hinfo
  | cons candidate rest =>
    rw [bestFields] at h
    cases hinfos : candidate.table.fieldInfos with
    | error e =>
      rw [hinfos] at h
      cases h
    | ok infos =>
      rw [hinfos] at h
      cases h
      intro name info hinfo text htext
      obtain ⟨found, hfound, heq⟩ := List.mem_map.mp (Entries.mem_of_lookup_ofList hinfo)
      obtain ⟨-, rfl⟩ := Prod.mk.inj heq
      obtain ⟨row, hrow, hcell⟩ := exists_of_mem_of_mapM_eq_ok hinfos found hfound
      refine hcandidates candidate List.mem_cons_self row hrow text ?_
      rw [← htext, comment_of_fieldInfo_eq_ok hcell]

end Correlator

/-- What the descriptions in all tables have in common the comments of fields have. -/
theorem Environment.documents_remarks {env : Environment} {remark : String → Prop}
    (htables : ∀ t ∈ env.correlator.tables, t.1.Remarks remark) :
    env.Documents (Memory.Keeps (DocTable.Remarks remark)) (FieldInfo.Remarks remark) := by
  refine documents_of (fun name info hinfo ↦ by cases hinfo) ?_
  intro _ memory path s found hmemory hfound
  obtain ⟨hcandidates, hlearnt⟩ := of_searchFields_eq_ok htables hmemory hfound
  exact ⟨List.forall_mem_append.mpr ⟨hlearnt, hmemory⟩, fun _ ↦
    remarks_of_bestFields_eq_ok hcandidates⟩

end SchemaTypes
