import Mathlib.Algebra.Order.BigOperators.Group.List
import SchemaTypes.Proofs.Identifier.Likeness
import SchemaTypes.Proofs.Text.Boundaries
import SchemaTypes.Snowflake.Curated

/-!
# Entries that fit every field

A list of kinds is read word by word, and every word becomes a token (`kindOfLine_eq_some_iff`). A
word of neither letters nor digits, such as the sign in front of a remark that is indented, becomes
an empty token. Every name ends with nothing, so that an entry with such a token fits every field,
and it alone does (`Kind.isCatchAll_eq_false_iff_exists`): a field can have a name that comes to
nothing as well.

So entries tell fields apart exactly if the lists they are read from are legible, word by word, and
the bare type is guessed exactly if an empty kind is reached (`selective_iff_legible`).
-/

namespace SchemaTypes

theorem Path.text_popPrivate_ofRoot (name : String) : (ofRoot name).popPrivate.text = name := by
  simp [ofRoot, popPrivate, text, names]

namespace Snowflake

open Identifier

/-! ## Legible lists -/

/-- Every word of a list says something: a letter or a digit stands in each word on a line that is
no remark. -/
def Legible (text : String) : Prop :=
  ∀ line ∈ Text.splitLines text.toList, isRemark line = false →
    ∀ word ∈ Text.words line, word.any isWordLetter = true

instance (text : String) : Decidable (Legible text) :=
  inferInstanceAs (Decidable (∀ line ∈ Text.splitLines text.toList, isRemark line = false →
    ∀ word ∈ Text.words line, word.any isWordLetter = true))

/-- The token that a word becomes, of a kind and of an alias alike. -/
def tokenOf (word : List Char) : String := ofMixedCase (String.ofList word)

theorem tokenOf_eq_empty_iff {word : List Char} :
    tokenOf word = "" ↔ word.any isWordLetter = false := by
  rw [tokenOf, ofMixedCase_eq_empty_iff, String.toList_ofList, List.any_eq_false]
  simp only [Bool.not_eq_true]

/-- A line that is no remark holds an entry if it holds words, and these become its tokens. -/
theorem kindOfLine_eq_some_iff {line : List Char} {kind : Kind} :
    kindOfLine line = some kind ↔ isRemark line = false ∧
      kind.tokens = (Text.words line).map tokenOf := by
  unfold kindOfLine
  split
  · next h => simp [h]
  · next h =>
    rw [Bool.not_eq_true] at h
    split
    · next hwords => simp [h, hwords, Kind.tokens]
    · next name aliases hwords =>
      obtain ⟨kindName, kindAliases⟩ := kind
      simp only [h, hwords, Kind.tokens, List.map_cons, true_and, Option.some.injEq, Kind.mk.injEq,
        List.cons.injEq, ofSnakeCase_eq_ofMixedCase]
      exact and_congr eq_comm eq_comm

/-- A list is legible exactly if no token of its entries is empty. -/
theorem forall_tokens_iff_legible {text : String} :
    (∀ kind ∈ readKinds text, ∀ token ∈ kind.tokens, token ≠ "") ↔ Legible text := by
  constructor
  · intro h line hline hremark word hword
    have hentry : ∃ kind, kindOfLine line = some kind := by
      obtain ⟨name, aliases, htokens⟩ := List.exists_cons_of_ne_nil
        (List.ne_nil_of_mem (List.mem_map_of_mem (f := tokenOf) hword))
      exact ⟨⟨name, aliases⟩, kindOfLine_eq_some_iff.mpr ⟨hremark, htokens.symm⟩⟩
    obtain ⟨kind, hkind⟩ := hentry
    have htoken : tokenOf word ∈ kind.tokens := by
      rw [(kindOfLine_eq_some_iff.mp hkind).2]
      exact List.mem_map_of_mem hword
    have hne := h kind (List.mem_filterMap.mpr ⟨line, hline, hkind⟩) _ htoken
    rwa [ne_eq, tokenOf_eq_empty_iff, Bool.not_eq_false] at hne
  · intro h kind hkind token htoken hempty
    obtain ⟨line, hline, hentry⟩ := List.mem_filterMap.mp hkind
    obtain ⟨hremark, htokens⟩ := kindOfLine_eq_some_iff.mp hentry
    rw [htokens, List.mem_map] at htoken
    obtain ⟨word, hword, rfl⟩ := htoken
    rw [tokenOf_eq_empty_iff, h line hline hremark word hword] at hempty
    cases hempty

/-- Texts that are joined line by line hold the entries of each of them. -/
theorem readKinds_intercalate (texts : List String) :
    readKinds ("\n".intercalate texts) = texts.flatMap readKinds := by
  induction texts with
  | nil => rfl
  | cons text rest ih =>
    cases rest with
    | nil => rw [String.intercalate_singleton, List.flatMap_singleton]
    | cons next rest =>
      have hchars : ("\n".intercalate (text :: next :: rest)).toList =
          text.toList ++ '\n' :: ("\n".intercalate (next :: rest)).toList := by
        rw [String.intercalate_cons_cons, String.toList_append, String.toList_append,
          List.append_assoc]
        rfl
      obtain ⟨gap, hgap, hlines⟩ := Text.splitLines_append_feed text.toList
        ("\n".intercalate (next :: rest)).toList
      -- The line feed between two texts may add a line, but an empty one.
      have hnone : gap.filterMap kindOfLine = [] := by
        rw [List.filterMap_eq_nil_iff]
        intro line hline
        rw [hgap line hline]
        rfl
      rw [readKinds, hchars, hlines, List.filterMap_append, List.filterMap_append, hnone,
        List.append_nil, List.flatMap_cons, ← ih]
      rfl

/-! ## Fitting -/

/-- Whether an entry fits the field at the end of a path. -/
def Kind.fits (k : Kind) (p : Path) : Bool :=
  k.tokens.any fun token ↦ matchesToken token (fieldName p) (parentName p)

/-- Whether an entry has an empty token. -/
def Kind.isCatchAll (k : Kind) : Bool := k.tokens.contains ""

/-- Every name ends with nothing. -/
theorem matchesToken_empty (name parent : String) : matchesToken "" name parent = true := by
  have hends : Text.endsWith name "" = true :=
    List.isSuffixOf_iff_suffix.mpr List.nil_suffix
  simp [matchesToken, hends]

/-- A field without a name goes by nothing but an empty token. -/
theorem matchesToken_nameless_iff {token parent : String} :
    matchesToken token "" parent = true ↔ token = "" := by
  constructor
  · intro h
    simp only [matchesToken, Text.endsWith, Bool.or_eq_true, Bool.and_eq_true, beq_iff_eq,
      List.isSuffixOf_iff_suffix, String.toList_empty, List.suffix_nil, String.toList_eq_nil_iff,
      String.toList_append, List.append_eq_nil_iff] at h
    simpa using h
  · rintro rfl
    exact matchesToken_empty _ _

theorem Kind.fits_of_isCatchAll {k : Kind} (h : k.isCatchAll = true) (p : Path) :
    k.fits p = true := by
  rw [isCatchAll, List.contains_iff_mem] at h
  exact List.any_eq_true.mpr ⟨"", h, matchesToken_empty _ _⟩

theorem Kind.isCatchAll_eq_false_iff {k : Kind} :
    k.isCatchAll = false ↔ ∀ token ∈ k.tokens, token ≠ "" := by
  rw [isCatchAll, ← Bool.not_eq_true, List.contains_iff_mem]
  exact ⟨fun h token htoken hempty ↦ h (hempty ▸ htoken), fun h hmem ↦ h "" hmem rfl⟩

/-- A schema whose name is made of hyphens. -/
def hyphens (n : Nat) : Path := .ofRoot (String.ofList (List.replicate n '-'))

theorem fieldName_hyphens (n : Nat) : fieldName (hyphens n) = "" := by
  have hcurrent : (hyphens n).popPrivate.current = String.ofList (List.replicate n '-') := rfl
  rw [fieldName, hcurrent, ofSnakeCase_eq_ofMixedCase, ofMixedCase_eq_empty_iff,
    String.toList_ofList]
  intro c hc
  rw [List.eq_of_mem_replicate hc]
  rfl

/-- Names of hyphens come to nothing, so only catch-alls fit them. -/
theorem Kind.fits_hyphens (k : Kind) (n : Nat) : k.fits (hyphens n) = k.isCatchAll := by
  rw [Bool.eq_iff_iff, fits, isCatchAll, fieldName_hyphens, List.any_eq_true,
    List.contains_iff_mem]
  simp only [matchesToken_nameless_iff, exists_eq_right]

theorem Kind.isCatchAll_eq_false_iff_exists {k : Kind} :
    k.isCatchAll = false ↔ ∃ p, k.fits p = false := by
  constructor
  · intro h
    exact ⟨hyphens 1, (k.fits_hyphens 1).trans h⟩
  · rintro ⟨p, hp⟩
    rw [← Bool.not_eq_true]
    intro h
    rw [fits_of_isCatchAll h p] at hp
    cases hp

/-! ## Guesses -/

namespace Table

variable {t : Table} {p : Path}

theorem kindOf_of_lookup_eq_none (h : t.fields.lookup p.popPrivate.text = none) :
    t.kindOf p = (t.kinds.find? fun k ↦ k.fits p).map Kind.name := by
  rw [kindOf, h]
  rfl

theorem kindOf_of_lookup_eq_some {kind : String}
    (h : t.fields.lookup p.popPrivate.text = some kind) : t.kindOf p = some kind := by
  rw [kindOf, h]

/-- The type of a snowflake is bare exactly if its kind is. -/
theorem guess_eq_bare_iff : t.guess p = "ID" ↔ t.kindOf p = some "" := by
  rw [guess]
  cases t.kindOf p with
  | none => exact iff_of_false (by decide) (by simp)
  | some kind =>
    dsimp only
    rw [Option.some.injEq, ← String.toList_inj, String.toList_append, List.append_left_eq_self]
    exact String.toList_eq_nil_iff

/-- Some name of hyphens has no kind by path. -/
theorem exists_lookup_hyphens_eq_none (fields : List (String × String)) :
    ∃ n, fields.lookup (hyphens n).popPrivate.text = none := by
  refine ⟨(fields.map fun e ↦ e.1.length).sum + 1, ?_⟩
  rw [hyphens, Path.text_popPrivate_ofRoot, List.lookup_eq_none_iff]
  intro e he
  have hle : e.1.length ≤ (fields.map fun e ↦ e.1.length).sum :=
    List.le_sum_of_mem (List.mem_map_of_mem he)
  rw [bne_iff_ne]
  intro heq
  rw [← heq, String.length_ofList, List.length_replicate] at hle
  omega

/-- The bare type is guessed of some field exactly if a path has an empty kind, or the first
catch-all has one. -/
theorem forall_guess_ne_bare_iff (t : Table) : (∀ p, t.guess p ≠ "ID") ↔
    (∀ path, t.fields.lookup path ≠ some "") ∧
      ∀ kind, t.kinds.find? Kind.isCatchAll = some kind → kind.name ≠ "" := by
  simp only [ne_eq, guess_eq_bare_iff]
  constructor
  · intro h
    refine ⟨fun path hpath ↦ ?_, fun kind hkind hname ↦ ?_⟩
    · rw [← Path.text_popPrivate_ofRoot path] at hpath
      exact h _ (kindOf_of_lookup_eq_some hpath)
    · obtain ⟨n, hn⟩ := exists_lookup_hyphens_eq_none t.fields
      refine h (hyphens n) ?_
      simp only [kindOf_of_lookup_eq_none hn, Kind.fits_hyphens]
      rw [hkind, Option.map_some, hname]
  · rintro ⟨hfields, hkinds⟩ p hp
    cases hlookup : t.fields.lookup p.popPrivate.text with
    | some kind =>
      rw [kindOf_of_lookup_eq_some hlookup] at hp
      exact hfields _ (hlookup.trans hp)
    | none =>
      rw [kindOf_of_lookup_eq_none hlookup] at hp
      obtain ⟨kind, hfound, hname⟩ := Option.map_eq_some_iff.mp hp
      obtain ⟨-, before, after, happend, hbefore⟩ := List.find?_eq_some_iff_append.mp hfound
      -- What fits nothing in front of the kind is no catch-all, and the kind is one.
      refine hkinds kind (List.find?_eq_some_iff_append.mpr ⟨?_, before, after, happend, ?_⟩) hname
      · rw [Kind.isCatchAll, List.contains_iff_mem, ← hname]
        exact List.mem_cons_self
      · intro other hother
        have hfits := hbefore other hother
        rw [Bool.not_eq_true'] at hfits ⊢
        exact Kind.isCatchAll_eq_false_iff_exists.mpr ⟨p, hfits⟩

end Table

/-- **When lists of kinds tell fields apart.** Of a table that is read from a list, with further
kinds and paths: no token is empty exactly if the list and the further kinds are legible, and no
entry fits every field exactly if they are. The bare type is never guessed exactly if no path has an
empty kind, and the first entry that fits every field, if there is one, has not. -/
theorem selective_iff_legible (kindLines fieldLines : String) (kinds : List String)
    (fields : List (String × String)) :
    let t := (Table.mk (readKinds kindLines) (readFields fieldLines)).override kinds fields
    let legible := Legible kindLines ∧ ∀ text ∈ kinds, Legible text
    ((∀ kind ∈ t.kinds, ∀ token ∈ kind.tokens, token ≠ "") ↔ legible) ∧
    ((∀ kind ∈ t.kinds, ∃ p, kind.fits p = false) ↔ legible) ∧
    ((∀ p, t.guess p ≠ "ID") ↔ (∀ path, t.fields.lookup path ≠ some "") ∧
      ∀ kind, t.kinds.find? Kind.isCatchAll = some kind → kind.name ≠ "") := by
  intro t legible
  have hkinds : t.kinds = kinds.flatMap readKinds ++ readKinds kindLines := by
    rw [← readKinds_intercalate]
    rfl
  have htokens : (∀ kind ∈ t.kinds, ∀ token ∈ kind.tokens, token ≠ "") ↔ legible := by
    rw [hkinds, List.forall_mem_append, forall_tokens_iff_legible, and_comm,
      List.forall_mem_flatMap]
    exact and_congr_right' (forall₂_congr fun _ _ ↦ forall_tokens_iff_legible)
  refine ⟨htokens, ?_, t.forall_guess_ne_bare_iff⟩
  rw [← htokens]
  refine forall₂_congr fun kind _ ↦ ?_
  rw [← Kind.isCatchAll_eq_false_iff_exists, Kind.isCatchAll_eq_false_iff]

/-- A remark that is indented is read as an entry. It fits every field, and where it is reached the
bare type is guessed. -/
theorem not_selective_of_indented_remark :
    let t := curated.override [" # voice channels"] []
    (∃ kind ∈ t.kinds, "" ∈ kind.tokens ∧ ∀ p, kind.fits p = true) ∧ ∃ p, t.guess p = "ID" := by
  intro t
  have hfirst : t.kinds.find? Kind.isCatchAll = some ⟨"", ["Voice", "Channels"]⟩ := by
    decide +kernel
  refine ⟨⟨_, List.mem_of_find?_eq_some hfirst, by decide, ?_⟩, ?_⟩
  · exact Kind.fits_of_isCatchAll (List.find?_some hfirst)
  · by_contra hnone
    exact (t.forall_guess_ne_bare_iff.mp fun p hp ↦ hnone ⟨p, hp⟩).2 _ hfirst rfl

example : Legible "# -\nLobby" ∧ ¬ Legible " # Lobby" := by decide +kernel

end Snowflake

end SchemaTypes
