import SchemaTypes.Proofs.Json.Typing
import SchemaTypes.Proofs.Schema.Leading

/-!
# Documents whose keywords are texts

References, formats, titles and descriptions keep the value they were written with, and what uses
them fails on a value that is no text. In a textual document they are texts, as they should be. Then
following references cannot fail, whether they dangle or come back to themselves
(`Document.exists_deref_eq_ok`), and nor can what asks for a namespace or a name.
-/

namespace SchemaTypes

namespace Schema

/-- Keywords that are texts where texts are expected. -/
structure Keywords.Textual (k : Keywords) : Prop where
  ref : ∀ ref, k.ref = some ref → ref.IsText
  format : k.format.IsText
  title : k.title.IsText
  description : k.description.IsText

/-- A schema in which the keywords of all nodes are textual. -/
def Textual (s : Schema) : Prop := ∀ t, Within t s → t.keywords.Textual

namespace Textual

variable {s : Schema}

theorem keywords (h : s.Textual) : s.keywords.Textual := h s .self

theorem of_mem_children (h : s.Textual) {child : Schema} (hchild : child ∈ s.children) :
    child.Textual :=
  fun t ht ↦ h t (.step hchild ht)

theorem of_children (hkeywords : s.keywords.Textual)
    (hchildren : ∀ child ∈ s.children, child.Textual) : s.Textual := by
  intro t ht
  cases ht with
  | self => exact hkeywords
  | step hchild ht => exact hchildren _ hchild t ht

/-- What a node refers to is a text, if it refers to anything. -/
theorem ref_eq (h : s.Textual) : s.ref = none ∨ ∃ text, s.ref = some (.text text) := by
  cases href : s.ref with
  | none => exact .inl rfl
  | some ref =>
    obtain ⟨text, rfl⟩ := h.keywords.ref ref href
    exact .inr ⟨text, rfl⟩

theorem exists_refNamespace_eq_ok (h : s.Textual) : ∃ space, s.refNamespace = .ok space := by
  rw [refNamespace]
  rcases h.ref_eq with href | ⟨text, href⟩
  · exact ⟨"", by rw [href]⟩
  · exact ⟨Reference.namespaceOf text, by rw [href]; rfl⟩

theorem exists_isSchemaReference_eq_ok (h : s.Textual) :
    ∃ isReference, s.isSchemaReference = .ok isReference := by
  obtain ⟨space, hspace⟩ := h.exists_refNamespace_eq_ok
  exact ⟨space == schemasNamespace, by rw [isSchemaReference, hspace]; rfl⟩

theorem exists_refName_eq_ok (h : s.Textual) : ∃ name, s.refName = .ok name := by
  rw [refName]
  rcases h.ref_eq with href | ⟨text, href⟩
  · exact ⟨"", by rw [href]⟩
  · exact ⟨Reference.nameOf text, by rw [href]; rfl⟩

end Textual

end Schema

namespace Document

/-- A document all of whose entries are textual. -/
def Textual (d : Document) : Prop := ∀ e ∈ d.entries, e.2.Textual

/-- References are followed to an end, which is a textual schema again. -/
theorem exists_follow_eq_ok {table : List (Entry × Schema)} (htable : ∀ e ∈ table, e.2.Textual)
    {s : Schema} (hs : s.Textual) : ∃ t, follow table s = .ok t ∧ t.Textual := by
  fun_induction follow table s with
  | case1 table s | case2 table s | case3 table s => exact ⟨s, rfl, hs⟩
  | case4 table s ref href entry hentry next hnext ih =>
    refine ih (fun e he ↦ htable e (List.mem_filter.mp he).1) ?_
    exact htable _ (Entries.mem_of_lookup hnext)
  | case5 table s value href =>
    obtain ⟨text, htext⟩ := hs.keywords.ref _ href
    cases htext
  | case6 table s value href =>
    obtain ⟨text, htext⟩ := hs.keywords.ref _ href
    cases htext
  | case7 table s value htext _ _ href =>
    obtain ⟨text, rfl⟩ := hs.keywords.ref _ href
    exact absurd rfl (htext text)

/-- In a textual document every reference has an end, also one that dangles or comes back. -/
theorem exists_deref_eq_ok {d : Document} (hd : d.Textual) {s : Schema} (hs : s.Textual) :
    ∃ t, d.deref s = .ok t ∧ t.Textual :=
  exists_follow_eq_ok hd hs

/-- What a reference names is textual. -/
theorem Textual.of_resolve_eq_ok {d : Document} (hd : d.Textual) {ref : Json} {s : Schema}
    (h : d.resolve ref = .ok (some s)) : s.Textual := by
  obtain ⟨entry, hmem⟩ := exists_mem_entries_of_resolve_eq_ok h
  exact hd _ hmem

end Document

end SchemaTypes
