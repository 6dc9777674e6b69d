import Mathlib.Data.List.Perm.Basic
import SchemaTypes.Proofs.Elements
import SchemaTypes.Proofs.Schema.Reading
import SchemaTypes.Proofs.Text.Order

/-!
# The order of a catalogue

The entries of a catalogue are read one after the other, so their order shows in the numbers of
nodes and in the order of the document. Nothing else: read in another order, the entries make a
document that has the same canonical form (`Document.load_reordered`), in which no node has a number
and entries stand in the order of their names.
-/

namespace SchemaTypes.Document

open Schema Schema.Reader

/-! ## Reading entries in turn -/

/-- Reads the entries of a catalogue in turn, each with the reader for its name and value. -/
def readEach (f : String → Json → Reader Schema) :
    List (String × Json) → Reader (List (String × Schema))
  | [] => pure []
  | (name, value) :: rest => do
    let schema ← f name value
    return (name, schema) :: (← readEach f rest)

/-- Reads an entry of the catalogue of schemas. -/
def schemaReader (name : String) (value : Json) : Reader Schema :=
  Schema.read value (schemasNamespace ++ "/" ++ name)

/-- Reads an entry of the catalogue of responses. -/
def responseReader (name : String) (response : Json) : Reader Schema := do
  let value ← (responseSchema response).mapError LoadError.mismatch
  Schema.read value (responsesNamespace ++ "/" ++ name)

theorem readSchemas_eq_readEach (entries : List (String × Json)) :
    readSchemas schemasNamespace entries = readEach schemaReader entries := by
  induction entries with
  | nil => rfl
  | cons e rest ih =>
    rw [readSchemas, readEach, ih]
    rfl

theorem readResponses_eq_readEach (entries : List (String × Json)) :
    readResponses entries = readEach responseReader entries := by
  induction entries with
  | nil => rfl
  | cons e rest ih =>
    rw [readResponses, readEach, ih]
    simp only [responseReader, bind_assoc]

theorem readProperties_eq_readEach (named : List (String × Json)) (location : String) :
    readProperties named location =
      readEach (fun name value ↦ Schema.read value (location ++ "/properties/" ++ name)) named := by
  induction named with
  | nil => rw [readProperties, readEach]
  | cons e rest ih => rw [readProperties, readEach, ih]

variable {f : String → Json → Reader Schema}

/-- What is read in turn is read of one entry each, and has its name. -/
theorem forall₂_readEach {entries : List (String × Json)} {n next : Nat}
    {schemas : List (String × Schema)} (hread : readEach f entries n = .ok (schemas, next)) :
    List.Forall₂ (fun entry p ↦ p.1 = entry.1 ∧ ∃ m last, f entry.1 entry.2 m = .ok (p.2, last))
      entries schemas := by
  induction entries generalizing n schemas with
  | nil =>
    cases hread
    exact .nil
  | cons e rest ih =>
    rw [readEach] at hread
    obtain ⟨s, middle, more, hs, hmore, rfl⟩ := of_cons_eq_ok hread
    exact .cons ⟨rfl, n, middle, hs⟩ (ih hmore)

/-- What is read in turn is read by one reader each, of one entry. -/
theorem exists_read_of_mem {entries : List (String × Json)} {n next : Nat}
    {schemas : List (String × Schema)} (hread : readEach f entries n = .ok (schemas, next))
    {p : String × Schema} (hp : p ∈ schemas) :
    ∃ entry ∈ entries, ∃ m after, f entry.1 entry.2 m = .ok (p.2, after) := by
  obtain ⟨entry, hentry, -, hread⟩ := exists_mem_left_of_forall₂ (forall₂_readEach hread) p hp
  exact ⟨entry, hentry, hread⟩

/-- An entry reads as a schema without positions, wherever reading begins. -/
def ReadsAs (f : String → Json → Reader Schema) (entry : String × Json) (p : String × Schema) :
    Prop :=
  p.1 = entry.1 ∧ ∀ n, ∃ s next, f entry.1 entry.2 n = .ok (s, next) ∧ s.unnumbered = p.2

/-- What is read in turn is what each entry reads as. -/
theorem forall₂_readsAs (hf : ∀ name value, Alike unnumbered (f name value) (f name value))
    {entries : List (String × Json)} {n next : Nat} {schemas : List (String × Schema)}
    (hread : readEach f entries n = .ok (schemas, next)) :
    List.Forall₂ (ReadsAs f) entries (withoutPositions schemas) := by
  refine List.forall₂_map_right_iff.mpr ((forall₂_readEach hread).imp ?_)
  rintro e p ⟨hname, n, last, hs⟩
  refine ⟨hname, fun m ↦ ?_⟩
  have hsame := hf e.1 e.2 m n
  rw [hs] at hsame
  cases hm : f e.1 e.2 m with
  | error e =>
    rw [hm] at hsame
    cases hsame
  | ok r =>
    rw [hm] at hsame
    exact ⟨r.1, r.2, rfl, Except.ok.inj hsame⟩

/-- Entries that read as schemas can be read in turn. -/
theorem exists_readEach_eq_ok {entries : List (String × Json)} {schemas : List (String × Schema)}
    (h : List.Forall₂ (ReadsAs f) entries schemas) (n : Nat) :
    ∃ read next, readEach f entries n = .ok (read, next) ∧ withoutPositions read = schemas := by
  induction h generalizing n with
  | nil => exact ⟨[], n, rfl, rfl⟩
  | @cons e p entries schemas hentry _ ih =>
    obtain ⟨hname, hreads⟩ := hentry
    obtain ⟨s, middle, hs, hsame⟩ := hreads n
    obtain ⟨more, next, hmore, hrest⟩ := ih middle
    refine ⟨(e.1, s) :: more, next, ?_, ?_⟩
    · rw [readEach, bind_of_ok hs, bind_of_ok hmore]
      rfl
    · rw [← hrest]
      exact congrArg (· :: withoutPositions more) (Prod.ext hname.symm hsame)

/-- What is read in turn has the names of the entries, and its properties are in order. -/
theorem ordered_readEach (hf : ∀ name value, (f name value).Places)
    {entries : List (String × Json)} {n next : Nat} {schemas : List (String × Schema)}
    (hread : readEach f entries n = .ok (schemas, next)) :
    Entries.names schemas = Entries.names entries ∧ ∀ p ∈ schemas, p.2.Ordered := by
  constructor
  · have hnames : List.Forall₂ (fun e p ↦ e.1 = p.1) entries schemas :=
      (forall₂_readEach hread).imp fun e p h ↦ h.1.symm
    exact (List.forall₂_eq_eq_eq ▸ List.forall₂_map_left_iff.mpr
      (List.forall₂_map_right_iff.mpr hnames) : Entries.names entries = Entries.names schemas).symm
  · intro p hp
    obtain ⟨e, -, n, last, hs⟩ := exists_read_of_mem hread hp
    exact (hf e.1 e.2 n p.2 last hs).2.2

theorem alike_responseReader (name : String) (response : Json) :
    Alike unnumbered (responseReader name response) (responseReader name response) := by
  refine (alike_liftM id _).bind ?_
  rintro value _ rfl
  exact alike_read value _

theorem places_responseReader (name : String) (response : Json) :
    (responseReader name response).Places := by
  intro n s next hread
  obtain ⟨value, m, hvalue, hschema⟩ := of_bind_eq_ok hread
  obtain ⟨-, rfl⟩ := of_liftM_eq_ok hvalue
  exact ordered_read value _ m s next hschema

/-! ## Documents -/

/-- A document in which names are distinct and properties stand in the order of their numbers. -/
structure Arranged (d : Document) : Prop where
  nodup_schemas : (Entries.names d.schemas).Nodup
  nodup_responses : (Entries.names d.responses).Nodup
  ordered_schemas : ∀ p ∈ d.schemas, p.2.Ordered
  ordered_responses : ∀ p ∈ d.responses, p.2.Ordered

/-- A document without numbers, in which entries stand in the order of their names. -/
def canonical (d : Document) : Document where
  schemas := Text.sortByName (withoutPositions d.schemas)
  responses := Text.sortByName (withoutPositions d.responses)

/-- Two values hold the same catalogues up to the order of the entries. The catalogues are objects,
in which no name occurs twice. -/
def Reordered (value value' : Json) : Prop :=
  ∃ schemas schemas' responses responses',
    catalogues value = .ok (schemas, .object responses) ∧
    catalogues value' = .ok (schemas', .object responses') ∧
    (Entries.names schemas).Nodup ∧ (Entries.names responses).Nodup ∧
    schemas'.Perm schemas ∧ responses'.Perm responses

/-- A document is loaded by reading its catalogues in turn. -/
theorem load_eq_ok_iff {value : Json} {schemas responses : List (String × Json)}
    (h : catalogues value = .ok (schemas, .object responses)) {d : Document} :
    load value = .ok d ↔ ∃ m next, readEach schemaReader schemas 1 = .ok (d.schemas, m) ∧
      readEach responseReader responses m = .ok (d.responses, next) := by
  have hreader : reader value = (do
      let schemas ← readEach schemaReader schemas
      return { schemas, responses := ← readEach responseReader responses }) := by
    rw [reader, h]
    simp only [readSchemas_eq_readEach, readResponses_eq_readEach]
    rfl
  change Prod.fst <$> reader value 1 = .ok d ↔ _
  rw [hreader]
  constructor
  · intro hload
    cases hread : (do
        let schemas ← readEach schemaReader schemas
        return { schemas, responses := ← readEach responseReader responses } :
        Reader Document) 1 with
    | error e =>
      rw [hread] at hload
      cases hload
    | ok r =>
      obtain ⟨document, last⟩ := r
      rw [hread] at hload
      cases hload
      obtain ⟨ss, m, hss, hread⟩ := of_bind_eq_ok hread
      obtain ⟨rs, next, hrs, hread⟩ := of_bind_eq_ok hread
      cases hread
      exact ⟨m, _, hss, hrs⟩
  · rintro ⟨m, next, hschemas, hresponses⟩
    rw [bind_of_ok hschemas, bind_of_ok hresponses]
    rfl

theorem arranged_of_load_eq_ok {value : Json} {schemas responses : List (String × Json)}
    (h : catalogues value = .ok (schemas, .object responses))
    (hschemas : (Entries.names schemas).Nodup) (hresponses : (Entries.names responses).Nodup)
    {d : Document} (hload : load value = .ok d) : d.Arranged := by
  obtain ⟨m, next, hss, hrs⟩ := (load_eq_ok_iff h).mp hload
  obtain ⟨hsnames, hsordered⟩ := ordered_readEach (fun _ value ↦ ordered_read value _) hss
  obtain ⟨hrnames, hrordered⟩ := ordered_readEach places_responseReader hrs
  refine ⟨?_, ?_, hsordered, hrordered⟩
  · rwa [hsnames]
  · rwa [hrnames]

/-- What is loaded has been read from an object of responses. -/
theorem exists_catalogues_eq_ok {value : Json} {d : Document} (hload : load value = .ok d) :
    ∃ schemas responses, catalogues value = .ok (schemas, .object responses) := by
  change Prod.fst <$> reader value 1 = .ok d at hload
  cases hread : reader value 1 with
  | error e =>
    rw [hread] at hload
    cases hload
  | ok r =>
    rw [reader] at hread
    obtain ⟨⟨schemas, responses⟩, _, hcatalogues, hread⟩ := of_bind_eq_ok hread
    obtain ⟨_, _, -, hread⟩ := of_bind_eq_ok hread
    obtain ⟨_, _, hmembers, -⟩ := of_bind_eq_ok hread
    cases responses with
    | object responses => exact ⟨schemas, responses, (of_liftM_eq_ok hcatalogues).1⟩
    | _ => cases hmembers

/-- Every entry of a loaded document has been read. -/
theorem exists_read_of_mem_entries {value : Json} {d : Document} (hload : load value = .ok d)
    {e : Entry × Schema} (he : e ∈ d.entries) :
    ∃ value location n next, Schema.read value location n = .ok (e.2, next) := by
  obtain ⟨schemas, responses, hcatalogues⟩ := exists_catalogues_eq_ok hload
  obtain ⟨m, next, hschemas, hresponses⟩ := (load_eq_ok_iff hcatalogues).mp hload
  rcases List.mem_append.mp he with he | he
  · obtain ⟨p, hp, rfl⟩ := List.mem_map.mp he
    obtain ⟨_, -, _, _, hread⟩ := exists_read_of_mem hschemas hp
    exact ⟨_, _, _, _, hread⟩
  · obtain ⟨p, hp, rfl⟩ := List.mem_map.mp he
    obtain ⟨_, -, _, _, hread⟩ := exists_read_of_mem hresponses hp
    obtain ⟨_, _, -, hread⟩ := of_bind_eq_ok hread
    exact ⟨_, _, _, _, hread⟩

/-- An entry of a loaded document that is a reference says nothing else. -/
theorem eq_reference_of_load {value : Json} {d : Document} (hload : load value = .ok d)
    {e : Entry × Schema} (he : e ∈ d.entries) {ref : Json} (href : e.2.ref = some ref) :
    e.2 = .reference ref e.2.line := by
  obtain ⟨_, _, _, _, hread⟩ := exists_read_of_mem_entries hload he
  exact eq_reference_of_read hread href

theorem names_withoutPositions (schemas : List (String × Schema)) :
    Entries.names (withoutPositions schemas) = Entries.names schemas := by
  rw [Entries.names, withoutPositions, List.map_map]
  rfl

/-- Entries that can be read in one order can be read in another one, to the same schemas. -/
theorem exists_readEach_of_perm (hf : ∀ name value, Alike unnumbered (f name value) (f name value))
    {entries entries' : List (String × Json)} (hperm : entries'.Perm entries) {m next : Nat}
    {schemas : List (String × Schema)} (hread : readEach f entries m = .ok (schemas, next))
    (n : Nat) :
    ∃ schemas' next', readEach f entries' n = .ok (schemas', next') ∧
      (withoutPositions schemas').Perm (withoutPositions schemas) := by
  obtain ⟨read, hreads, hsame⟩ := List.perm_comp_forall₂ hperm (forall₂_readsAs hf hread)
  obtain ⟨schemas', next', hread', rfl⟩ := exists_readEach_eq_ok hreads n
  exact ⟨schemas', next', hread', hsame⟩

/-- **Loading does not depend on the order of a catalogue**, apart from positions and order. -/
theorem load_reordered {value value' : Json} (h : Reordered value value') {d : Document}
    (hload : load value = .ok d) :
    d.Arranged ∧ ∃ d', load value' = .ok d' ∧ d'.Arranged ∧ d'.canonical = d.canonical := by
  obtain ⟨ss, ss', rs, rs', hvalue, hvalue', hsnodup, hrnodup, hsperm, hrperm⟩ := h
  have harranged := arranged_of_load_eq_ok hvalue hsnodup hrnodup hload
  obtain ⟨m, next, hss, hrs⟩ := (load_eq_ok_iff hvalue).mp hload
  obtain ⟨schemas, m', hss', hssame⟩ :=
    exists_readEach_of_perm (fun _ value ↦ alike_read value _) hsperm hss 1
  obtain ⟨responses, next', hrs', hrsame⟩ :=
    exists_readEach_of_perm alike_responseReader hrperm hrs m'
  have hload' : load value' = .ok ⟨schemas, responses⟩ :=
    (load_eq_ok_iff hvalue').mpr ⟨m', next', hss', hrs'⟩
  have hsnodup' : (Entries.names ss').Nodup := (hsperm.map Prod.fst).nodup_iff.mpr hsnodup
  have hrnodup' : (Entries.names rs').Nodup := (hrperm.map Prod.fst).nodup_iff.mpr hrnodup
  have harranged' := arranged_of_load_eq_ok hvalue' hsnodup' hrnodup' hload'
  refine ⟨harranged, _, hload', harranged', ?_⟩
  rw [canonical, canonical, Text.sortByName_eq_of_perm hssame, Text.sortByName_eq_of_perm hrsame]
  · rw [names_withoutPositions]
    exact harranged'.nodup_responses
  · rw [names_withoutPositions]
    exact harranged'.nodup_schemas

end SchemaTypes.Document
