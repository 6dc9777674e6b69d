import SchemaTypes.Proofs.Schema.Nesting
import SchemaTypes.Schema.Document

/-!
# Where references lead

A reference leads to the entry it names, which may be a reference in turn. `Document.Leads` says so
step by step, without the table that `Document.follow` takes entries out of: taking entries out only
makes following stop earlier (`leads_of_deref_eq_ok`).
-/

namespace SchemaTypes

namespace Document

/-- References lead from one node to another in any number of steps. -/
inductive Leads (d : Document) : Schema → Schema → Prop
  | refl (s : Schema) : Leads d s s
  | step {s t u : Schema} {ref : Json} :
      s.ref = some ref → d.resolve ref = .ok (some t) → Leads d t u → Leads d s u

theorem Leads.trans {d : Document} {s t u : Schema} (hst : d.Leads s t) (htu : d.Leads t u) :
    d.Leads s u := by
  induction hst with
  | refl => exact htu
  | step href hresolve _ ih => exact .step href hresolve (ih htu)

/-- A node that is no reference leads nowhere else. -/
theorem Leads.eq_of_ref_eq_none {d : Document} {s u : Schema} (h : d.Leads s u)
    (hs : s.ref = none) : u = s := by
  cases h with
  | refl => rfl
  | step href => rw [hs] at href; cases href

/-- A reference leads to itself and to where the schema leads that it names. -/
theorem Leads.eq_or_leads {d : Document} {s t u : Schema} {ref : Json} (h : d.Leads s u)
    (href : s.ref = some ref) (hresolve : d.resolve ref = .ok (some t)) :
    u = s ∨ d.Leads t u := by
  cases h with
  | refl => exact .inl rfl
  | step hother hnext hleads =>
    rw [href, Option.some.injEq] at hother
    rw [← hother, hresolve, Except.ok.injEq, Option.some.injEq] at hnext
    rw [hnext]
    exact .inr hleads

/-- What a reference names is one of the entries. -/
theorem exists_mem_entries_of_resolve_eq_ok {d : Document} {ref : Json} {s : Schema}
    (h : d.resolve ref = .ok (some s)) : ∃ entry, (entry, s) ∈ d.entries := by
  rw [resolve] at h
  cases htext : ref.textOr "rpartition" with
  | error e =>
    rw [htext] at h
    cases h
  | ok text =>
    rw [htext] at h
    obtain ⟨entry, -, hfound⟩ := Option.bind_eq_some_iff.mp (Except.ok.inj h)
    exact ⟨entry, Entries.mem_of_lookup hfound⟩

/-- What holds of a node and of all entries holds of what the node leads to. -/
theorem Leads.of_forall_mem_entries {d : Document} {P : Schema → Prop}
    (hentries : ∀ e ∈ d.entries, P e.2) {s t : Schema} (hs : P s) (h : d.Leads s t) : P t := by
  induction h with
  | refl => exact hs
  | step _ hresolve _ ih =>
    obtain ⟨entry, hmem⟩ := exists_mem_entries_of_resolve_eq_ok hresolve
    exact ih (hentries _ hmem)

theorem lookup_without (entry other : Entry) (table : List (Entry × Schema)) :
    (without entry table).lookup other = if other = entry then none else table.lookup other := by
  rw [without]
  induction table with
  | nil => rw [List.filter_nil, List.lookup_nil, ite_self]
  | cons e rest ih =>
    obtain ⟨key, value⟩ := e
    by_cases hkey : key = entry
    · subst hkey
      rw [List.filter_cons_of_neg (by simp), ih, Entries.lookup_cons_eq_ite]
      split <;> rfl
    · rw [List.filter_cons_of_pos (by simpa using hkey), Entries.lookup_cons_eq_ite, ih,
        Entries.lookup_cons_eq_ite]
      by_cases hother : other = key
      · rw [if_pos hother, if_neg (hother ▸ hkey), if_pos hother]
      · rw [if_neg hother, if_neg hother]

/-- What is found in a table without an entry was in the table. -/
theorem lookup_of_lookup_without {entry other : Entry} {s : Schema}
    {table : List (Entry × Schema)} (h : (without entry table).lookup other = some s) :
    table.lookup other = some s := by
  rw [lookup_without] at h
  split at h
  · cases h
  · exact h

theorem leads_of_follow_eq_ok {d : Document} {table : List (Entry × Schema)} {s t : Schema}
    (htable : ∀ entry u, table.lookup entry = some u → d.entries.lookup entry = some u)
    (h : follow table s = .ok t) : d.Leads s t := by
  fun_induction follow table s with
  | case1 | case2 | case3 =>
    cases h
    exact .refl _
  | case4 table s ref href entry hentry next hnext ih =>
    have hresolve : d.resolve (.text ref) = .ok (some next) := by
      rw [resolve_text, resolveText, hentry, Option.bind_some, htable entry next hnext]
    refine .step href hresolve (ih (fun other u hu ↦ htable other u ?_) h)
    exact lookup_of_lookup_without hu
  | case5 | case6 | case7 => cases h

/-- The node at the end of a chain is one that the chain leads to. -/
theorem leads_of_deref_eq_ok {d : Document} {s t : Schema} (h : d.deref s = .ok t) : d.Leads s t :=
  leads_of_follow_eq_ok (fun _ _ hu ↦ hu) h

/-- A node leads to the one that is written for it: itself, or the end of its chain. -/
theorem leads_of_ite_deref_eq_ok {d : Document} {s t : Schema} {isAlias : Bool}
    (h : (if isAlias then d.deref s else .ok s) = .ok t) : d.Leads s t := by
  cases isAlias with
  | true => exact leads_of_deref_eq_ok h
  | false =>
    cases h
    exact .refl s

end Document

/-! ## References within schemas -/

namespace Schema

/-- All references to schemas within a schema name one of the given schemas. -/
def RefersTo (names : List String) (s : Schema) : Prop :=
  ∀ t, Within t s → t.isSchemaReference = .ok true → ∀ name, t.refName = .ok name → name ∈ names

theorem refersTo_of_children {names : List String} {s : Schema}
    (hself : s.isSchemaReference = .ok true → ∀ name, s.refName = .ok name → name ∈ names)
    (hchildren : ∀ child ∈ s.children, child.RefersTo names) : s.RefersTo names := by
  intro t ht
  cases ht with
  | self => exact hself
  | step hchild ht => exact hchildren _ hchild t ht

theorem refersTo_of_ref_eq_none {names : List String} {s : Schema} (href : s.ref = none)
    (hchildren : ∀ child ∈ s.children, child.RefersTo names) : s.RefersTo names := by
  refine refersTo_of_children (fun hself ↦ ?_) hchildren
  rw [isSchemaReference, refNamespace, href] at hself
  cases hself

/-- A reference to a schema names one of the given schemas if its last segment does. -/
theorem refersTo_reference {names : List String} {ref : String} (line : Nat)
    (h : Reference.nameOf ref ∈ names) : (reference (.text ref) line).RefersTo names := by
  refine refersTo_of_children ?_ fun child hchild ↦ by cases hchild
  intro _ name hname
  cases hname
  exact h

end Schema

end SchemaTypes
