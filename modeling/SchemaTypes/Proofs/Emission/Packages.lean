import Mathlib
import SchemaTypes.Proofs.Emission.Declares
import SchemaTypes.Proofs.Identifier.Letters
import SchemaTypes.Proofs.Text.Sentences

/-!
# Packages that texts use

A declaration uses a package where it names one of its members (`Package.UsedIn`). Such a name has a
point in it, and most of what declarations are put together from has none; so it stands in a text
that is put together only if it stands in one of the pieces, as long as no name can go over a seam.

Three things are made of texts on the way: a star or line feeds are taken off, a value becomes an
optional one, and descriptions become comments. The first makes no name and loses none, the second
makes one of the package of optional values (`Package.usedIn_optional_iff`), and the third may make
one only by writing a small letter for a capital (`Package.not_usedIn_prose`).
-/

namespace SchemaTypes

open Declaration Identifier Text

/-! ## Packages that texts use -/

/-- A package that declarations may use. -/
inductive Package where
  /-- Points in time. -/
  | time
  /-- Optional values. -/
  | option
deriving DecidableEq, Repr

namespace Package

/-- The names of the members of a package. -/
def members : Package → List String
  | time => ["time.Time"]
  | option => ["option.Optional[", "option.Null"]

/-- A text uses a package. -/
def UsedIn (p : Package) (text : String) : Prop := ∃ word ∈ p.members, Contains word text

instance (p : Package) (text : String) : Decidable (p.UsedIn text) :=
  inferInstanceAs (Decidable (∃ word ∈ p.members, Contains word text))

theorem isDotted_of_mem_members {p : Package} {word : String} (h : word ∈ p.members) :
    IsDotted word.toList := by
  have hall : ∀ p : Package, ∀ word ∈ p.members,
      '.' ∈ word.toList ∧ word.toList.getLast? ≠ some '.' ∧
        ∀ c ∈ word.toList, isBreak c = false := by
    intro p
    cases p <;> simp [members, isBreak, isWordLetter]
  obtain ⟨hdot, hlast, hletters⟩ := hall p word h
  exact ⟨hdot, hlast, hletters⟩

end Package

/-! ## Texts that are put together -/

/-- A text ends where a word ends. -/
def EndsWord (text : String) : Prop := ∀ c ∈ text.toList.getLast?, isBreak c = true

/-- Whether a text is without a point, and no word goes over its end. -/
def isOpening (text : String) : Bool :=
  !text.toList.contains '.' && text.toList.getLast?.any isBreak

/-- Whether a text is without a point, and no word goes over its beginning. -/
def isClosing (text : String) : Bool :=
  !text.toList.contains '.' && text.toList.head?.any isBreak

section

variable {s t : String}

theorem not_mem_of_isOpening (h : isOpening s = true) : '.' ∉ s.toList := by
  simpa using (Bool.and_eq_true_iff.mp h).1

theorem not_mem_of_isClosing (h : isClosing s = true) : '.' ∉ s.toList := by
  simpa using (Bool.and_eq_true_iff.mp h).1

theorem endsWord_of_isOpening (h : isOpening t = true) (s : String) : EndsWord (s ++ t) := by
  obtain ⟨c, hc, hbreak⟩ := (Option.any_eq_true _ _).mp (Bool.and_eq_true_iff.mp h).2
  intro d hd
  rw [String.toList_append, List.getLast?_append, hc, Option.some_or, Option.mem_some_iff] at hd
  exact hd ▸ hbreak

theorem parted_of_isClosing (h : isClosing t = true) (s u : String) :
    Parted s.toList (t ++ u).toList := by
  obtain ⟨c, hc, hbreak⟩ := (Option.any_eq_true _ _).mp (Bool.and_eq_true_iff.mp h).2
  refine .inr fun d hd ↦ ?_
  rw [String.toList_append, List.head?_append, hc, Option.some_or, Option.mem_some_iff] at hd
  exact hd ▸ hbreak

end

namespace Package

variable {p : Package} {s t u : String}

/-- A package is used in one of two texts if none of its names can go over their seam. -/
theorem usedIn_append_iff (h : Parted s.toList t.toList) :
    p.UsedIn (s ++ t) ↔ p.UsedIn s ∨ p.UsedIn t := by
  have hword : ∀ word ∈ p.members,
      (Contains word (s ++ t) ↔ Contains word s ∨ Contains word t) := by
    intro word hword
    rw [Contains, String.toList_append, (isDotted_of_mem_members hword).infix_append_iff h]
    rfl
  simp only [UsedIn, ← exists_or, ← and_or_left]
  exact exists_congr fun word ↦ and_congr_right (hword word)

theorem not_usedIn_of_not_mem (h : '.' ∉ s.toList) : ¬ p.UsedIn s := by
  rintro ⟨word, hword, hcontains⟩
  exact (isDotted_of_mem_members hword).not_infix_of_not_mem h hcontains

theorem not_usedIn_of_lettered (h : Lettered s) : ¬ p.UsedIn s := by
  refine not_usedIn_of_not_mem fun hdot ↦ ?_
  cases h '.' hdot

theorem usedIn_opening_iff (h : isOpening s = true) : p.UsedIn (s ++ t) ↔ p.UsedIn t := by
  have hends : EndsWord s := by simpa using endsWord_of_isOpening h ""
  rw [usedIn_append_iff (.inl hends), or_iff_right (not_usedIn_of_not_mem (not_mem_of_isOpening h))]

theorem usedIn_closing_iff (h : isClosing t = true) : p.UsedIn (s ++ t) ↔ p.UsedIn s := by
  have hparted : Parted s.toList t.toList := by simpa using parted_of_isClosing h s ""
  rw [usedIn_append_iff hparted,
    or_iff_left (not_usedIn_of_not_mem (not_mem_of_isClosing h))]

/-- A package is used on one side of a text that no word goes over the ends of. -/
theorem usedIn_between_iff (h : (isOpening t && isClosing t) = true) :
    p.UsedIn (s ++ t ++ u) ↔ p.UsedIn s ∨ p.UsedIn u := by
  obtain ⟨hopening, hclosing⟩ := Bool.and_eq_true_iff.mp h
  rw [usedIn_append_iff (.inl (endsWord_of_isOpening hopening s)), usedIn_closing_iff hclosing]

/-- In texts each of which ends where a word ends, a package is used in one of them. -/
theorem usedIn_join_iff {texts : List String} (h : ∀ text ∈ texts, EndsWord text) :
    p.UsedIn (String.join texts) ↔ ∃ text ∈ texts, p.UsedIn text := by
  induction texts with
  | nil =>
    refine iff_of_false (not_usedIn_of_not_mem (by simp)) ?_
    rintro ⟨_, hmem, -⟩
    cases hmem
  | cons text rest ih =>
    obtain ⟨htext, hrest⟩ := List.forall_mem_cons.mp h
    rw [String.join_cons, usedIn_append_iff (.inl htext), ih hrest, List.exists_mem_cons_iff]

/-- In texts with blanks between them a package is used in one of them. -/
theorem usedIn_intercalate_iff {texts : List String} :
    p.UsedIn (" ".intercalate texts) ↔ ∃ text ∈ texts, p.UsedIn text := by
  induction texts with
  | nil =>
    rw [String.intercalate_nil]
    refine iff_of_false (not_usedIn_of_not_mem (by simp)) ?_
    rintro ⟨_, hmem, -⟩
    cases hmem
  | cons text rest ih =>
    cases rest with
    | nil =>
      rw [String.intercalate_singleton]
      simp only [List.mem_singleton, exists_eq_left]
    | cons next rest =>
      rw [String.intercalate_cons_cons, usedIn_between_iff (by decide), ih]
      exact (List.exists_mem_cons_iff _ _ _).symm

/-- A star in front of a type is no part of a word. -/
theorem usedIn_removeBeginning_iff : p.UsedIn (removeBeginning s "*") ↔ p.UsedIn s := by
  have hstar : "*".toList = ['*'] := rfl
  rw [removeBeginning, onChars, hstar, dropBeginning]
  split
  · next hprefix =>
    obtain ⟨rest, hrest⟩ := List.isPrefixOf_iff_prefix.mp hprefix
    have hs : s = "*" ++ String.ofList rest := by
      rw [← String.toList_inj, ← hrest, String.toList_append, hstar, String.toList_ofList]
    rw [hs, usedIn_opening_iff (by decide)]
    simp [hstar]
  · rw [String.ofList_toList]

theorem usedIn_optional_iff {type : String} :
    p.UsedIn (TypeExpression.optional type) ↔ p.UsedIn type ∨ p = option := by
  have htype : p.UsedIn (TypeExpression.optional type) ↔
      p.UsedIn ("option.Optional[" ++ removeBeginning type "*") :=
    usedIn_closing_iff (by decide)
  rw [htype]
  cases p with
  | time =>
    -- The bracket is no part of the only name.
    have hbracket : '[' ∉ "time.Time".toList := by decide
    have hnone : ¬ "time.Time".toList <:+: "option.Optional".toList := by
      rw [← isWithin_iff]
      decide
    have hlist : ("option.Optional[" ++ removeBeginning type "*").toList =
        "option.Optional".toList ++ '[' :: (removeBeginning type "*").toList := by
      rw [String.toList_append]
      rfl
    have hcontains : Contains "time.Time" ("option.Optional[" ++ removeBeginning type "*") ↔
        Contains "time.Time" (removeBeginning type "*") := by
      rw [Contains, hlist, infix_append_cons_iff hbracket, or_iff_right hnone]
      rfl
    rw [or_iff_left (by decide), ← usedIn_removeBeginning_iff (s := type)]
    simp only [UsedIn, members, List.mem_singleton, exists_eq_left, hcontains]
  | option =>
    refine iff_of_true ⟨"option.Optional[", by decide, ?_⟩ (.inr rfl)
    rw [Contains, String.toList_append]
    exact (List.prefix_append _ _).isInfix

/-- Line feeds behind a text are no part of a word. -/
theorem usedIn_trimFeeds_iff : p.UsedIn (TypeExpression.trimFeeds s) ↔ p.UsedIn s := by
  obtain ⟨n, hn⟩ := TypeExpression.exists_trimFeeds_append s
  have hfeeds : ∀ c ∈ List.replicate n '\n', c = '\n' := fun c ↦ List.eq_of_mem_replicate
  have hends : Parted (TypeExpression.trimFeeds s).toList
      (String.ofList (List.replicate n '\n')).toList := by
    refine .inr fun c hc ↦ ?_
    rw [String.toList_ofList] at hc
    rw [hfeeds c (List.mem_of_head? hc)]
    decide
  have hnone : '.' ∉ (String.ofList (List.replicate n '\n')).toList := by
    rw [String.toList_ofList]
    exact fun hdot ↦ by cases hfeeds '.' hdot
  have happend := usedIn_append_iff (p := p) hends
  rw [hn, or_iff_left (not_usedIn_of_not_mem hnone)] at happend
  exact happend.symm

end Package

/-! ## Texts that name no package -/

/-- A text has the name of a member of one of the packages in it. -/
def NamesPackage (text : String) : Prop := Contains "time.Time" text ∨ Contains "option." text

instance (text : String) : Decidable (NamesPackage text) :=
  inferInstanceAs (Decidable (_ ∨ _))

/-- A text has the name of a member of one of the packages in it, if a capital may begin it. -/
def NamesPackageCapitalized (text : String) : Prop :=
  NamesPackage text ∨ Contains "Time.Time" text ∨ Contains "Option." text

instance (text : String) : Decidable (NamesPackageCapitalized text) :=
  inferInstanceAs (Decidable (_ ∨ _))

namespace Package

variable {p : Package} {text : String}

theorem not_usedIn_of_not_namesPackage (h : ¬ NamesPackage text) : ¬ p.UsedIn text := by
  rintro ⟨word, hword, hcontains⟩
  have hnames : ∀ p : Package, ∀ word ∈ p.members, NamesPackage word := by
    intro p
    cases p <;> decide
  exact h ((hnames p word hword).imp (·.trans hcontains) (·.trans hcontains))

/-- Setting a text in lines of comments makes no name of a member. -/
theorem not_usedIn_partComment (h : ¬ p.UsedIn text) : ¬ p.UsedIn (Comment.partComment text) := by
  rintro ⟨word, hword, hcontains⟩
  rw [Contains, Comment.partComment, toList_onChars] at hcontains
  exact h ⟨word, hword,
    Comment.infix_of_infix_formatChars (isDotted_of_mem_members hword) hcontains⟩

/-- The names of members begin with a small letter, and the capitals in front of the rest. -/
theorem exists_casePair_of_mem_members {word : String} (h : word ∈ p.members) :
    ∃ small capital rest, IsCasePair small capital ∧ word.toList = small :: rest ∧
      (Contains "Time.Time" (String.ofList (capital :: rest)) ∨
        Contains "Option." (String.ofList (capital :: rest))) := by
  cases p with
  | time =>
    obtain rfl := List.mem_singleton.mp h
    exact ⟨'t', 'T', "ime.Time".toList, isCasePair_t, rfl, by decide⟩
  | option =>
    rcases List.mem_pair.mp h with rfl | rfl
    · exact ⟨'o', 'O', "ption.Optional[".toList, isCasePair_o, rfl, by decide⟩
    · exact ⟨'o', 'O', "ption.Null".toList, isCasePair_o, rfl, by decide⟩

/-- A sentence uses a package only if the description names it, maybe with a capital. -/
theorem not_usedIn_prose {name description subject : String} (hname : Lettered name)
    (h : ¬ NamesPackageCapitalized description) :
    ¬ p.UsedIn (Comment.prose name description subject) := by
  rintro ⟨word, hword, hcontains⟩
  obtain ⟨small, capital, rest, hpair, hlist, hcapital⟩ := exists_casePair_of_mem_members hword
  have hdotted := isDotted_of_mem_members hword
  rw [hlist] at hdotted
  rw [Contains, Comment.prose, String.toList_ofList, hlist] at hcontains
  have hdot : '.' ∉ name.toList := fun hdot ↦ by cases hname '.' hdot
  rcases Comment.infix_of_infix_proseChars hpair hdotted hdot hcontains with hsmall | hlarge
  · have hused : p.UsedIn description := ⟨word, hword, by rwa [Contains, hlist]⟩
    exact not_usedIn_of_not_namesPackage (fun hnames ↦ h (.inl hnames)) hused
  · have hlarge : Contains (String.ofList (capital :: rest)) description := by
      rwa [Contains, String.toList_ofList]
    exact h (.inr (hcapital.imp (·.trans hlarge) (·.trans hlarge)))

end Package

end SchemaTypes
