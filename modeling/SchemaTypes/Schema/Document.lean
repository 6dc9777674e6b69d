import SchemaTypes.Schema.Basic
import SchemaTypes.Text.Affix

/-!
# Documents and references

A document is a catalogue of named schemas and one of named response bodies. A reference is a text
whose last segment names an entry and whose other segments name the catalogue.

References are followed through a shrinking table: an entry that has been followed is taken out, so
a chain that comes back to it ends there, and every chain ends.
-/

namespace SchemaTypes

/-- What the text in front of the name of a schema is. -/
def schemasNamespace : String := "#/components/schemas"

/-- What the text in front of the name of a response is. -/
def responsesNamespace : String := "#/components/responses"

/-- A catalogue of named schemas and named response bodies, each in document order. -/
structure Document where
  schemas : List (String × Schema)
  responses : List (String × Schema)
deriving Inhabited

/-- An entry of a document. -/
inductive Entry where
  | schema (name : String)
  | response (name : String)
deriving DecidableEq, Repr

/-! ## Reference texts -/

namespace Reference

/-- The characters before the last slash and those behind it. Without a slash nothing is before. -/
def splitLast (cs : List Char) : List Char × List Char :=
  let name := (cs.reverse.takeWhile (· != '/')).reverse
  (cs.take (cs.length - name.length - 1), name)

/-- The last segment of a reference. -/
def nameOf (ref : String) : String := String.ofList (splitLast ref.toList).2

/-- All segments of a reference but the last. -/
def namespaceOf (ref : String) : String := String.ofList (splitLast ref.toList).1

/-- The entry a reference names, if it points into a catalogue. -/
def entry? (ref : String) : Option Entry :=
  if namespaceOf ref = schemasNamespace then some (.schema (nameOf ref))
  else if namespaceOf ref = responsesNamespace then some (.response (nameOf ref))
  else none

/-- The last segment of a reference, which has to be a text. -/
def name (ref : Json) : Except Mismatch String := nameOf <$> ref.textOr "rsplit"

/-- The namespace of a reference. Lists and objects are searched for a slash first, and pass as
references without a namespace when they hold none. -/
def refNamespace : Json → Except Mismatch String
  | .text s => .ok (namespaceOf s)
  | value => do if ← value.holds "/" then throw (.lacks value.kind "rsplit") else return ""

end Reference

/-- The namespace of what a node refers to; a node that is no reference has none. -/
def Schema.refNamespace (s : Schema) : Except Mismatch String :=
  match s.ref with
  | some ref => Reference.refNamespace ref
  | none => .ok ""

/-- The name of what a node refers to; a node that is no reference has none. -/
def Schema.refName (s : Schema) : Except Mismatch String :=
  match s.ref with
  | some ref => Reference.name ref
  | none => .ok ""

/-- Whether a node refers to a named schema. -/
def Schema.isSchemaReference (s : Schema) : Except Mismatch Bool := do
  return (← s.refNamespace) == schemasNamespace

/-! ## Following references -/

namespace Document

/-- All entries of a document. -/
def entries (d : Document) : List (Entry × Schema) :=
  d.schemas.map (fun (name, s) ↦ (.schema name, s)) ++
    d.responses.map fun (name, s) ↦ (.response name, s)

/-- The schema that a reference text names. -/
def resolveText (d : Document) (ref : String) : Option Schema :=
  (Reference.entry? ref).bind fun entry ↦ d.entries.lookup entry

/-- The schema that a reference names. -/
def resolve (d : Document) (ref : Json) : Except Mismatch (Option Schema) :=
  d.resolveText <$> ref.textOr "rpartition"

@[simp] theorem resolve_text (d : Document) (ref : String) :
    d.resolve (.text ref) = .ok (d.resolveText ref) := rfl

/-- A table without one of its entries. -/
def without (entry : Entry) (table : List (Entry × Schema)) : List (Entry × Schema) :=
  table.filter fun e ↦ e.1 != entry

theorem length_without_lt_of_lookup {entry : Entry} {s : Schema} {table : List (Entry × Schema)}
    (h : table.lookup entry = some s) : (without entry table).length < table.length := by
  induction table with
  | nil => simp at h
  | cons e rest ih =>
    obtain ⟨key, value⟩ := e
    by_cases hk : entry = key
    · subst hk
      have := List.length_filter_le (fun e : Entry × Schema ↦ e.1 != entry) rest
      simp [without]
      omega
    · have hne : (entry == key) = false := by simpa using hk
      have hne' : (key != entry) = true := by simpa using fun h ↦ hk h.symm
      rw [List.lookup_cons, hne] at h
      simpa [without, hne'] using ih h

/-- Follows the references from a node through a table of entries, each of them once. -/
def follow (table : List (Entry × Schema)) (s : Schema) : Except Mismatch Schema :=
  match s.ref with
  | none => .ok s
  | some (.text ref) =>
    match Reference.entry? ref with
    | none => .ok s
    | some entry =>
      -- An entry that has been followed is not in the table any more.
      match _h : table.lookup entry with
      | none => .ok s
      | some next => follow (without entry table) next
  | some (.list _) => .error (.notKey .list)
  | some (.object _) => .error (.notKey .object)
  | some value => .error (.lacks value.kind "rpartition")
termination_by table.length
decreasing_by exact length_without_lt_of_lookup _h

/-- The node at the end of a chain of references: one that is no reference, or the first one whose
reference leads nowhere or has been followed before. -/
def deref (d : Document) (s : Schema) : Except Mismatch Schema := follow d.entries s

end Document

end SchemaTypes
