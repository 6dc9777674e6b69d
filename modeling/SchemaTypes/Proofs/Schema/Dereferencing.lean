import Mathlib
import SchemaTypes.Proofs.Json.Typing
import SchemaTypes.Proofs.Schema.Leading

/-!
# The end of a chain of references

References are followed through a table out of which every entry is taken that has been followed.
What this comes to is told here without the table, by the references themselves
(`Document.Follows`): a reference is followed unless its text has been met before, and its text is
met from then on. As an entry has one text only (`Reference.eq_textOf_of_entry?`), both ways go to
the same end (`Document.follows_deref`).

No text is met twice, so that following ends after as many turns as there are texts. It ends at a
node that is no reference if the chain has one. Otherwise the chain breaks off or runs in a circle,
and following ends where it breaks off or where the circle closes. From there it goes nowhere else:
a circle closes where it was entered (`Document.deref_ends`).
-/

namespace SchemaTypes

/-! ## Texts of entries -/

namespace Reference

theorem splitLast_append {name : List Char} (h : '/' ∉ name) (before : List Char) :
    splitLast (before ++ '/' :: name) = (before, name) := by
  have hname : (before ++ '/' :: name).reverse.takeWhile (· != '/') = name.reverse := by
    rw [List.reverse_append, List.reverse_cons, List.append_assoc, List.takeWhile_append_of_pos]
    · simp
    · intro c hc
      rw [bne_iff_ne]
      rintro rfl
      exact h (List.mem_reverse.mp hc)
  have hlength : (before ++ '/' :: name).length - name.length - 1 = before.length := by
    rw [List.length_append, List.length_cons]
    omega
  rw [splitLast, hname, List.reverse_reverse, hlength, List.take_left]

/-- A text with something before the last slash is put together of its two parts. -/
theorem eq_append_of_splitLast {cs : List Char} (h : (splitLast cs).1 ≠ []) :
    cs = (splitLast cs).1 ++ '/' :: (splitLast cs).2 := by
  by_cases hmem : '/' ∈ cs.reverse
  · obtain ⟨behind, before, hreverse, hbehind⟩ := List.eq_append_cons_of_mem hmem
    have hcs : cs = before.reverse ++ '/' :: behind.reverse := by
      simpa using congrArg List.reverse hreverse
    rw [hcs, splitLast_append (by simpa using hbehind)]
  · refine absurd ?_ h
    have hall : cs.reverse.takeWhile (· != '/') = cs.reverse := by
      rw [List.takeWhile_eq_self_iff]
      intro c hc
      rw [bne_iff_ne]
      rintro rfl
      exact hmem hc
    rw [splitLast, hall]
    simp

/-- The text that refers to an entry. -/
def textOf : Entry → String
  | .schema name => schemasNamespace ++ "/" ++ name
  | .response name => responsesNamespace ++ "/" ++ name

theorem eq_append_of_namespaceOf {ref space : String} (hspace : namespaceOf ref = space)
    (hne : space ≠ "") : ref = space ++ "/" ++ nameOf ref := by
  have hparts : (splitLast ref.toList).1 ≠ [] := by
    intro hnil
    rw [namespaceOf, hnil] at hspace
    exact hne hspace.symm
  have htexts := eq_append_of_splitLast hparts
  rw [← String.toList_inj, ← hspace, namespaceOf, nameOf]
  simpa using htexts

/-- An entry has one text. -/
theorem eq_textOf_of_entry? {ref : String} {entry : Entry} (h : entry? ref = some entry) :
    ref = textOf entry := by
  unfold entry? at h
  split at h
  · next hspace =>
    cases h
    exact eq_append_of_namespaceOf hspace (by decide)
  · split at h
    · next hspace =>
      cases h
      exact eq_append_of_namespaceOf hspace (by decide)
    · cases h

/-- The text by which a reference is met. What is no key cannot be looked for among texts, and what
is no text cannot be taken apart. -/
def met (ref : Json) : Except Mismatch String := do
  let _ ← ref.asKey
  ref.textOr "rpartition"

@[simp] theorem met_text (ref : String) : met (.text ref) = .ok ref := rfl

end Reference

namespace Document

variable {d : Document} {seen seen' : List String} {s t u next : Schema} {ref : String}
  {outcome : Except Mismatch Schema}

/-! ## Turns -/

/-- Follows references from a node when some texts have been met: with the texts that are met in
the end, and what comes of it. Every turn meets one more text. -/
inductive Follows (d : Document) :
    List String → Schema → List String → Except Mismatch Schema → Prop
  /-- A node that is no reference is the end. -/
  | found {seen : List String} {s : Schema} : s.ref = none → Follows d seen s seen (.ok s)
  /-- A reference that has been met is the end, too. -/
  | again {seen : List String} {s : Schema} {ref : String} :
      s.ref = some (.text ref) → ref ∈ seen → Follows d seen s seen (.ok s)
  /-- A reference that names nothing is met, and is the end. -/
  | lost {seen : List String} {s : Schema} {ref : String} :
      s.ref = some (.text ref) → ref ∉ seen → d.resolveText ref = none →
        Follows d seen s (ref :: seen) (.ok s)
  /-- Any other reference is met, and is followed. -/
  | turn {seen seen' : List String} {s next : Schema} {ref : String}
      {outcome : Except Mismatch Schema} :
      s.ref = some (.text ref) → ref ∉ seen → d.resolveText ref = some next →
        Follows d (ref :: seen) next seen' outcome → Follows d seen s seen' outcome
  /-- A reference that is no text fails. -/
  | fail {seen : List String} {s : Schema} {value : Json} {e : Mismatch} :
      s.ref = some value → Reference.met value = .error e → Follows d seen s seen (.error e)

/-- A table holds the entries of a document whose texts have not been met. -/
def Unmet (d : Document) (seen : List String) (table : List (Entry × Schema)) : Prop :=
  ∀ ref entry, Reference.entry? ref = some entry →
    table.lookup entry = if ref ∈ seen then none else d.entries.lookup entry

theorem Unmet.without {table : List (Entry × Schema)} (h : d.Unmet seen table) {entry : Entry}
    (hentry : Reference.entry? ref = some entry) :
    d.Unmet (ref :: seen) (without entry table) := by
  intro other found hfound
  rw [lookup_without, h other found hfound]
  by_cases hother : other = ref
  · have hsame : found = entry := by
      rw [hother, hentry] at hfound
      exact (Option.some.inj hfound).symm
    rw [if_pos hsame, if_pos (List.mem_cons.mpr (.inl hother))]
  · -- An entry has one text, so that no other text loses its entry.
    have hdiffers : found ≠ entry := by
      rintro rfl
      exact hother
        ((Reference.eq_textOf_of_entry? hfound).trans (Reference.eq_textOf_of_entry? hentry).symm)
    simp only [if_neg hdiffers, List.mem_cons, or_iff_right hother]

theorem resolveText_of_entry? {entry : Entry} (hentry : Reference.entry? ref = some entry) :
    d.resolveText ref = d.entries.lookup entry := by
  rw [resolveText, hentry, Option.bind_some]

/-- Following through a table of what has not been met is following by texts. -/
theorem exists_follows_follow {table : List (Entry × Schema)} (htable : d.Unmet seen table)
    (hseen : ∀ ref ∈ seen, d.resolveText ref ≠ none) (s : Schema) :
    ∃ seen', d.Follows seen s seen' (follow table s) := by
  fun_induction follow table s generalizing seen with
  | case1 table s href => exact ⟨seen, .found href⟩
  | case2 table s ref href hentry =>
    -- What has been met has been followed, so a text that names nothing is new.
    have hresolve : d.resolveText ref = none := by rw [resolveText, hentry, Option.bind_none]
    exact ⟨_, .lost href (fun hmem ↦ hseen ref hmem hresolve) hresolve⟩
  | case3 table s ref href entry hentry hnone =>
    rw [htable ref entry hentry] at hnone
    by_cases hmem : ref ∈ seen
    · exact ⟨seen, .again href hmem⟩
    · rw [if_neg hmem, ← resolveText_of_entry? hentry] at hnone
      exact ⟨_, .lost href hmem hnone⟩
  | case4 table s ref href entry hentry next hnext ih =>
    rw [htable ref entry hentry] at hnext
    by_cases hmem : ref ∈ seen
    · rw [if_pos hmem] at hnext
      cases hnext
    · rw [if_neg hmem, ← resolveText_of_entry? hentry] at hnext
      obtain ⟨seen', hfollows⟩ := ih (htable.without hentry)
        (List.forall_mem_cons.mpr ⟨by rw [hnext]; exact Option.some_ne_none next, hseen⟩)
      exact ⟨seen', .turn href hmem hnext hfollows⟩
  | case5 table s value href => exact ⟨seen, .fail href rfl⟩
  | case6 table s value href => exact ⟨seen, .fail href rfl⟩
  | case7 table s value htext hlist hobject href =>
    refine ⟨seen, .fail href ?_⟩
    cases value with
    | text text => exact absurd rfl (htext text)
    | list items => exact absurd rfl (hlist items)
    | object members => exact absurd rfl (hobject members)
    | _ => rfl

/-- Dereferencing is following by texts when none has been met. -/
theorem follows_deref (d : Document) (s : Schema) : ∃ seen, d.Follows [] s seen (d.deref s) :=
  exists_follows_follow (fun _ _ _ ↦ (if_neg List.not_mem_nil).symm)
    (fun _ hmem ↦ absurd hmem List.not_mem_nil) s

theorem Follows.unique (h : d.Follows seen s seen' outcome) {other : List String}
    {outcome' : Except Mismatch Schema} (h' : d.Follows seen s other outcome') :
    outcome' = outcome := by
  induction h with
  | found href => cases h' <;> simp_all
  | again href hmem => cases h' <;> simp_all
  | lost href hmem hresolve => cases h' <;> simp_all
  | turn href hmem hresolve _ ih => cases h' <;> simp_all
  | @fail seen s value e href hfail =>
    have htext : ∀ ref, .text ref ≠ value := by
      rintro ref rfl
      cases hfail
    cases h' <;> simp_all

/-! ## What has been met -/

/-- A text is met on the way from a node. -/
def Reaches (d : Document) (s : Schema) (ref : String) : Prop :=
  ∃ t, d.Leads s t ∧ t.ref = some (.text ref)

theorem leads_of_resolveText (href : s.ref = some (.text ref))
    (hresolve : d.resolveText ref = some next) (h : d.Leads next t) : d.Leads s t :=
  .step href ((resolve_text d ref).trans (congrArg _ hresolve)) h

/-- No text is met twice. -/
theorem Follows.nodup (h : d.Follows seen s seen' outcome) (hseen : seen.Nodup) :
    seen'.Nodup := by
  induction h with
  | found | again | fail => exact hseen
  | lost href hmem => exact List.nodup_cons.mpr ⟨hmem, hseen⟩
  | turn href hmem _ _ ih => exact ih (List.nodup_cons.mpr ⟨hmem, hseen⟩)

/-- What is met is on the way. -/
theorem Follows.reaches (h : d.Follows seen s seen' outcome) :
    ∀ ref ∈ seen', ref ∈ seen ∨ d.Reaches s ref := by
  induction h with
  | found | again | fail => exact fun ref hmem ↦ .inl hmem
  | @lost seen s ref href hmem hresolve =>
    intro other hother
    rcases List.mem_cons.mp hother with rfl | hother
    · exact .inr ⟨s, .refl s, href⟩
    · exact .inl hother
  | @turn seen seen' s next ref outcome href hmem hresolve _ ih =>
    intro other hother
    rcases ih other hother with hother | ⟨t, hleads, ht⟩
    · rcases List.mem_cons.mp hother with rfl | hother
      · exact .inr ⟨s, .refl s, href⟩
      · exact .inl hother
    · exact .inr ⟨t, leads_of_resolveText href hresolve hleads, ht⟩

/-- What is found is on the way. -/
theorem Follows.leads (h : d.Follows seen s seen' (.ok t)) : d.Leads s t := by
  generalize hend : (.ok t : Except Mismatch Schema) = outcome at h
  induction h with
  | found | again | lost =>
    cases hend
    exact .refl t
  | turn href _ hresolve _ ih => exact leads_of_resolveText href hresolve (ih hend)
  | fail => cases hend

/-- A failure is due to a reference that is no text. -/
theorem Follows.exists_of_error {e : Mismatch} (h : d.Follows seen s seen' (.error e)) :
    ∃ t ref, d.Leads s t ∧ t.ref = some ref ∧ ¬ ref.IsText := by
  generalize hend : (.error e : Except Mismatch Schema) = outcome at h
  induction h with
  | found | again | lost => cases hend
  | turn href _ hresolve _ ih =>
    obtain ⟨t, value, hleads, hvalue, htext⟩ := ih hend
    exact ⟨t, value, leads_of_resolveText href hresolve hleads, hvalue, htext⟩
  | @fail seen s value e href hfail =>
    refine ⟨s, value, .refl s, href, ?_⟩
    rintro ⟨ref, rfl⟩
    cases hfail

/-! ## Chains -/

/-- What names something is a text. -/
theorem exists_of_resolve {value : Json} (h : d.resolve value = .ok (some t)) :
    ∃ ref, value = .text ref ∧ d.resolveText ref = some t := by
  cases value with
  | text ref => exact ⟨ref, rfl, Except.ok.inj h⟩
  | _ => cases h

/-- A chain does not branch: of two nodes on it, one leads to the other. -/
theorem Leads.total (ht : d.Leads s t) (hu : d.Leads s u) : d.Leads t u ∨ d.Leads u t := by
  induction ht with
  | refl => exact .inl hu
  | step href hresolve hleads ih =>
    rcases hu.eq_or_leads href hresolve with rfl | hu
    · exact .inr (.step href hresolve hleads)
    · exact ih hu

/-- A reference leads back to its node. -/
def OnCircle (d : Document) (s : Schema) : Prop :=
  ∃ ref next, s.ref = some (.text ref) ∧ d.resolveText ref = some next ∧ d.Leads next s

/-- From a circle, a chain leads to nodes of that circle only. -/
theorem OnCircle.of_leads (h : d.OnCircle s) (hleads : d.Leads s t) : d.OnCircle t := by
  induction hleads with
  | refl => exact h
  | @step s x t value href hresolve _ ih =>
    refine ih ?_
    obtain ⟨ref, next, href', hnext, hback⟩ := h
    obtain ⟨text, rfl, htext⟩ := exists_of_resolve hresolve
    rw [href, Option.some.injEq, Json.text.injEq] at href'
    subst href'
    rw [htext, Option.some.injEq] at hnext
    subst hnext
    cases hback with
    | refl => exact ⟨text, _, href, htext, .refl _⟩
    | @step _ y _ value' href' hresolve' hback =>
      obtain ⟨text', rfl, htext'⟩ := exists_of_resolve hresolve'
      exact ⟨text', y, href', htext', hback.trans (leads_of_resolveText href htext (.refl x))⟩

/-- A reference that names nothing leads nowhere else. -/
theorem Leads.eq_of_resolveText_eq_none (h : d.Leads s t) (href : s.ref = some (.text ref))
    (hresolve : d.resolveText ref = none) : t = s := by
  cases h with
  | refl => rfl
  | step hother hnext =>
    rw [href, Option.some.injEq] at hother
    subst hother
    rw [resolve_text, hresolve] at hnext
    cases hnext

/-! ## Ends -/

/-- Whatever has been met before, a node is reached at which a text is met again, as long as that
text has been met. -/
theorem Follows.of_subset (h : d.Follows seen s seen' (.ok t)) (ht : t.ref = some (.text ref))
    {other : List String} (hmem : ref ∈ other) (hsub : other ⊆ seen) :
    ∃ other', d.Follows other s other' (.ok t) := by
  generalize hend : (.ok t : Except Mismatch Schema) = outcome at h
  -- Where less has been met, following does not end before the node, and at the node it does.
  induction h generalizing other with
  | found href =>
    cases hend
    rw [href] at ht
    cases ht
  | again =>
    cases hend
    exact ⟨other, .again ht hmem⟩
  | lost href hnot =>
    cases hend
    rw [href, Option.some.injEq, Json.text.injEq] at ht
    exact absurd (hsub (ht ▸ hmem)) hnot
  | turn href hnot hresolve _ ih =>
    obtain ⟨other', hfollows⟩ :=
      ih (List.mem_cons_of_mem _ hmem) (List.cons_subset_cons _ hsub) hend
    exact ⟨other', .turn href (fun hmet ↦ hnot (hsub hmet)) hresolve hfollows⟩
  | fail => cases hend

/-- The node at which following ends: one that is no reference, one whose reference names nothing,
or one whose text has been met before. If that has not been before the first turn, the node is on a
circle, and followed from there the circle closes at it again. -/
theorem Follows.end_cases (h : d.Follows seen s seen' (.ok t)) :
    t.ref = none ∨ ∃ ref ∈ seen', t.ref = some (.text ref) ∧
      (d.resolveText ref = none ∨ ref ∈ seen ∨
        d.OnCircle t ∧ ∃ circle, d.Follows [] t circle (.ok t)) := by
  generalize hend : (.ok t : Except Mismatch Schema) = outcome at h
  induction h with
  | found href =>
    cases hend
    exact .inl href
  | again href hmem =>
    cases hend
    exact .inr ⟨_, hmem, href, .inr (.inl hmem)⟩
  | lost href _ hresolve =>
    cases hend
    exact .inr ⟨_, List.mem_cons_self, href, .inl hresolve⟩
  | fail => cases hend
  | @turn seen seen' s next first outcome href hnot hresolve hfollows ih =>
    obtain hnone | ⟨ref, hmem, ht, hlost | hmet | hcircle⟩ := ih hend
    · exact .inl hnone
    · exact .inr ⟨ref, hmem, ht, .inl hlost⟩
    · rcases List.mem_cons.mp hmet with rfl | hmet
      · -- The circle closes here: the text met again is the one that was followed first.
        subst hend
        have hself : ref ∈ [ref] := List.mem_cons_self
        obtain ⟨circle, hcircle⟩ :=
          hfollows.of_subset ht hself (List.cons_subset_cons _ (List.nil_subset _))
        exact .inr ⟨ref, hmem, ht, .inr (.inr ⟨⟨ref, next, ht, hresolve, hfollows.leads⟩,
          circle, .turn ht List.not_mem_nil hresolve hcircle⟩)⟩
      · exact .inr ⟨ref, hmem, ht, .inr (.inl hmet)⟩
    · exact .inr ⟨ref, hmem, ht, .inr (.inr hcircle)⟩

/-- A node at which following ends: it is no reference, or one that names nothing, or one on a
circle. -/
def Ends (d : Document) (t : Schema) : Prop :=
  t.ref = none ∨ (∃ ref, t.ref = some (.text ref) ∧ d.resolveText ref = none) ∨ d.OnCircle t

/-- Where following ends, the chain has nothing but texts left. -/
theorem Ends.isText (h : d.Ends t) (hleads : d.Leads t u) {value : Json}
    (hvalue : u.ref = some value) : value.IsText := by
  obtain hnone | ⟨ref, href, hresolve⟩ | hcircle := h
  · rw [hleads.eq_of_ref_eq_none hnone, hnone] at hvalue
    cases hvalue
  · rw [hleads.eq_of_resolveText_eq_none href hresolve, href] at hvalue
    cases hvalue
    exact ⟨ref, rfl⟩
  · obtain ⟨ref, -, href, -⟩ := hcircle.of_leads hleads
    rw [href] at hvalue
    cases hvalue
    exact ⟨ref, rfl⟩

/-- Following ends at a reference only where the chain has no other end. -/
theorem Ends.ref_eq_none (h : d.Ends t) (hleads : d.Leads t u) (hu : u.ref = none) :
    t.ref = none := by
  obtain hnone | ⟨ref, href, hresolve⟩ | hcircle := h
  · exact hnone
  · rw [hleads.eq_of_resolveText_eq_none href hresolve] at hu
    exact hu
  · obtain ⟨ref, -, href, -⟩ := hcircle.of_leads hleads
    rw [hu] at href
    cases href

theorem ends_of_deref (h : d.deref s = .ok t) : d.Ends t := by
  obtain ⟨seen, hfollows⟩ := follows_deref d s
  rw [h] at hfollows
  obtain hnone | ⟨ref, -, ht, hlost | hmet | hcircle⟩ := hfollows.end_cases
  · exact .inl hnone
  · exact .inr (.inl ⟨ref, ht, hlost⟩)
  · exact absurd hmet List.not_mem_nil
  · exact .inr (.inr hcircle.1)

/-- Followed from where it ends, a chain ends there. -/
theorem deref_of_deref (h : d.deref s = .ok t) : d.deref t = .ok t := by
  obtain ⟨seen, hfollows⟩ := follows_deref d s
  obtain ⟨again, hagain⟩ := follows_deref d t
  rw [h] at hfollows
  obtain hnone | ⟨ref, -, ht, hlost | hmet | ⟨-, circle, hcircle⟩⟩ := hfollows.end_cases
  · exact (Follows.found hnone).unique hagain
  · exact (Follows.lost ht List.not_mem_nil hlost).unique hagain
  · exact absurd hmet List.not_mem_nil
  · exact hcircle.unique hagain

/-- References are followed to an end exactly if all of them are texts. -/
theorem exists_deref_eq_ok_iff (d : Document) (s : Schema) :
    (∃ t, d.deref s = .ok t) ↔ ∀ u, d.Leads s u → ∀ value, u.ref = some value → value.IsText := by
  constructor
  · rintro ⟨t, ht⟩ u hu value hvalue
    rcases (leads_of_deref_eq_ok ht).total hu with hleads | hleads
    · exact (ends_of_deref ht).isText hleads hvalue
    · cases hleads with
      | refl => exact (ends_of_deref ht).isText (.refl t) hvalue
      | step hother hresolve =>
        obtain ⟨ref, rfl, -⟩ := exists_of_resolve hresolve
        rw [hvalue] at hother
        cases hother
        exact ⟨ref, rfl⟩
  · intro htexts
    obtain ⟨seen, hfollows⟩ := follows_deref d s
    cases hderef : d.deref s with
    | ok t => exact ⟨t, rfl⟩
    | error e =>
      rw [hderef] at hfollows
      obtain ⟨u, value, hleads, hvalue, htext⟩ := hfollows.exists_of_error
      exact absurd (htexts u hleads value hvalue) htext

/-- **Every chain of references ends, and where it should.** Following a node takes a finite number
of turns, each of which meets one text, and no text on the way is met twice. It comes to a node
unless it meets a reference that is no text. The chain leads to that node. The node is no reference
exactly if the chain leads to one that is none; otherwise its text has been met, and names nothing
or has been followed on the way to the node. Followed once more, the node is its own end. -/
theorem deref_ends (d : Document) (s : Schema) :
    ((∃ t, d.deref s = .ok t) ↔
      ∀ u, d.Leads s u → ∀ value, u.ref = some value → value.IsText) ∧
    ∃ seen, d.Follows [] s seen (d.deref s) ∧ seen.Nodup ∧ (∀ ref ∈ seen, d.Reaches s ref) ∧
      ∀ t, d.deref s = .ok t →
        d.Leads s t ∧
        (t.ref = none ↔ ∃ u, d.Leads s u ∧ u.ref = none) ∧
        (t.ref = none ∨ ∃ ref ∈ seen, t.ref = some (.text ref) ∧
          (d.resolveText ref = none ∨
            ∃ next, d.resolveText ref = some next ∧ d.Leads next t)) ∧
        d.deref t = .ok t := by
  obtain ⟨seen, hfollows⟩ := follows_deref d s
  refine ⟨exists_deref_eq_ok_iff d s, seen, hfollows, hfollows.nodup .nil, ?_, ?_⟩
  · intro ref hmem
    exact (hfollows.reaches ref hmem).resolve_left List.not_mem_nil
  intro t ht
  have hleads := leads_of_deref_eq_ok ht
  refine ⟨hleads, ⟨fun hnone ↦ ⟨t, hleads, hnone⟩, ?_⟩, ?_, deref_of_deref ht⟩
  · rintro ⟨u, hu, hnone⟩
    rcases hleads.total hu with htu | hut
    · exact (ends_of_deref ht).ref_eq_none htu hnone
    · rwa [hut.eq_of_ref_eq_none hnone]
  · rw [ht] at hfollows
    obtain hnone | ⟨ref, hmem, href, hlost | hmet | ⟨hcircle, -⟩⟩ := hfollows.end_cases
    · exact .inl hnone
    · exact .inr ⟨ref, hmem, href, .inl hlost⟩
    · exact absurd hmet List.not_mem_nil
    · obtain ⟨other, next, hother, hresolve, hback⟩ := hcircle
      rw [href, Option.some.injEq, Json.text.injEq] at hother
      subst hother
      exact .inr ⟨ref, hmem, href, .inr ⟨next, hresolve, hback⟩⟩

/-- A document in which `A` leads to a circle of `B` and `C`. -/
def rhoDocument : Document where
  schemas := [
    ("A", .reference (.text "#/components/schemas/B") 1),
    ("B", .reference (.text "#/components/schemas/C") 2),
    ("C", .reference (.text "#/components/schemas/B") 3)]
  responses := []

/-- From `A` the circle closes at `C`, whose text led from `A` to `B`, and from `C` at `C` again. -/
theorem deref_ends_rho :
    rhoDocument.deref (.reference (.text "#/components/schemas/B") 1) =
        .ok (.reference (.text "#/components/schemas/B") 3) ∧
      (∀ u, rhoDocument.Leads (.reference (.text "#/components/schemas/B") 1) u → u.ref ≠ none) ∧
      rhoDocument.deref (.reference (.text "#/components/schemas/B") 3) =
        .ok (.reference (.text "#/components/schemas/B") 3) := by
  have hderef : rhoDocument.deref (.reference (.text "#/components/schemas/B") 1) =
      .ok (.reference (.text "#/components/schemas/B") 3) := by cbv
  obtain ⟨-, seen, -, -, -, hends⟩ :=
    deref_ends rhoDocument (.reference (.text "#/components/schemas/B") 1)
  obtain ⟨-, hnone, -, hagain⟩ := hends _ hderef
  refine ⟨hderef, fun u hu hu' ↦ ?_, hagain⟩
  cases hnone.mpr ⟨u, hu, hu'⟩

end Document

end SchemaTypes
