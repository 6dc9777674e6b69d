import Mathlib.Algebra.Ring.Nat
import SchemaTypes.Proofs.Json.Strings

/-!
# String literals

Declarations have string literals of two kinds. Between quotes, a backslash begins an escape
(`Literal.Escape`), and there are no line feeds; between back quotes everything stands for itself,
but carriage returns are dropped. What a literal denotes are bytes.

An escape is longer than the bytes it stands for, and has no comma. So what is written down
without regard to escapes comes out as it is, up to a comma, exactly if it has none of the
characters that mean something in a literal (`Literal.Spells.plain_of_length_le`).
-/

namespace SchemaTypes.Literal

/-! ## What literals denote -/

/-- The bytes of characters. -/
def bytes (cs : List Char) : List UInt8 := cs.flatMap String.utf8EncodeChar

/-- The number that digits to a base stand for. -/
def numeral (base : Nat) (digits : List Char) : Option Nat :=
  digits.foldlM (fun n c ↦ do
    let k ← Json.Parser.hexValue c
    if k < base then some (base * n + k) else none) 0

/-- The escapes of one letter or sign, with the bytes they stand for. -/
def letters : List (Char × UInt8) :=
  [('a', 7), ('b', 8), ('t', 9), ('n', 10), ('v', 11), ('f', 12), ('r', 13), ('"', 34), ('\\', 92)]

/-- The characters behind a backslash are an escape for bytes. Characters are told by their code
points, so that half a surrogate pair is none. -/
inductive Escape : List Char → List UInt8 → Prop
  | letter {c : Char} {b : UInt8} : letters.lookup c = some b → Escape [c] [b]
  | octal {digits : List Char} {n : Nat} :
      digits.length = 3 → numeral 8 digits = some n → n < 256 → Escape digits [n.toUInt8]
  | byte {digits : List Char} {n : Nat} :
      digits.length = 2 → numeral 16 digits = some n → Escape ('x' :: digits) [n.toUInt8]
  | short {digits : List Char} {c : Char} :
      digits.length = 4 → numeral 16 digits = some c.toNat →
      Escape ('u' :: digits) (String.utf8EncodeChar c)
  | long {digits : List Char} {c : Char} :
      digits.length = 8 → numeral 16 digits = some c.toNat →
      Escape ('U' :: digits) (String.utf8EncodeChar c)

/-- The characters that do not stand for themselves between quotes. -/
def special : List Char := ['"', '\\', '\n']

/-- Characters between quotes stand for bytes. -/
inductive Spells : List Char → List UInt8 → Prop
  | nil : Spells [] []
  | plain {c : Char} {cs : List Char} {bs : List UInt8} : c ∉ special → Spells cs bs →
      Spells (c :: cs) (String.utf8EncodeChar c ++ bs)
  | escaped {e cs : List Char} {b bs : List UInt8} : Escape e b → Spells cs bs →
      Spells ('\\' :: (e ++ cs)) (b ++ bs)

/-- A text is a literal in quotes that denotes bytes. -/
def Denotes (literal : List Char) (bs : List UInt8) : Prop :=
  ∃ body, literal = '"' :: (body ++ ['"']) ∧ Spells body bs

/-- A text is a literal in back quotes that denotes characters. -/
def DenotesRaw (literal value : List Char) : Prop :=
  ∃ body, literal = '\x60' :: (body ++ ['\x60']) ∧ '\x60' ∉ body ∧ value = body.filter (· != '\r')

/-! ## Numerals -/

section

variable {base n : Nat} {digits : List Char}

/-- All characters of a numeral are digits to its base. -/
theorem exists_hexValue_of_mem (h : numeral base digits = some n) :
    ∀ c ∈ digits, ∃ k < base, Json.Parser.hexValue c = some k := by
  unfold numeral at h
  generalize 0 = start at h
  induction digits generalizing start with
  | nil => exact fun _ hc ↦ absurd hc List.not_mem_nil
  | cons c rest ih =>
    rw [List.foldlM_cons] at h
    obtain ⟨next, hnext, hrest⟩ := Option.bind_eq_some_iff.mp h
    obtain ⟨k, hk, hnext⟩ := Option.bind_eq_some_iff.mp hnext
    refine List.forall_mem_cons.mpr ⟨⟨k, ?_, hk⟩, ih next hrest⟩
    by_contra hlarge
    rw [if_neg hlarge] at hnext
    cases hnext

theorem not_mem_of_numeral {c : Char} (h : numeral base digits = some n)
    (hc : ∀ k < base, Json.Parser.hexValue c ≠ some k) : c ∉ digits := by
  intro hmem
  obtain ⟨k, hk, hvalue⟩ := exists_hexValue_of_mem h c hmem
  exact hc k hk hvalue

/-- A number is what its digits to base sixteen stand for. -/
theorem numeral_hex {width : Nat} (h : n < 16 ^ width) :
    numeral 16 (Text.hex width n) = some n := by
  induction width generalizing n with
  | zero =>
    rw [Nat.pow_zero, Nat.lt_one_iff] at h
    rw [h]
    rfl
  | succ width ih =>
    have hfront : n / 16 < 16 ^ width := Nat.div_lt_of_lt_mul (by rwa [← Nat.pow_succ'])
    have hlast : n % 16 < 16 := Nat.mod_lt n (by decide)
    have hfold := ih hfront
    rw [numeral] at hfold
    rw [numeral, Text.hex, List.foldlM_append, hfold]
    simp [Json.hexValue_hexDigit hlast, hlast, Nat.div_add_mod]

end

/-! ## Bytes of characters -/

theorem bytes_cons (c : Char) (cs : List Char) :
    bytes (c :: cs) = String.utf8EncodeChar c ++ bytes cs :=
  List.flatMap_cons

theorem bytes_append (a b : List Char) : bytes (a ++ b) = bytes a ++ bytes b :=
  List.flatMap_append

theorem length_utf8EncodeChar_pos (c : Char) : 0 < (String.utf8EncodeChar c).length := by
  rw [String.length_utf8EncodeChar]
  exact c.utf8Size_pos

theorem length_le_length_bytes (cs : List Char) : cs.length ≤ (bytes cs).length := by
  induction cs with
  | nil => exact Nat.le_refl 0
  | cons c rest ih =>
    have hc := length_utf8EncodeChar_pos c
    rw [bytes_cons, List.length_cons, List.length_append]
    omega

/-- Characters that are kept have no more bytes than all of them, and as many only if all are. -/
theorem length_bytes_filter_le (p : Char → Bool) (cs : List Char) :
    (bytes (cs.filter p)).length ≤ (bytes cs).length ∧
      ((bytes cs).length ≤ (bytes (cs.filter p)).length → ∀ c ∈ cs, p c = true) := by
  induction cs with
  | nil => exact ⟨Nat.le_refl 0, fun _ c hc ↦ absurd hc List.not_mem_nil⟩
  | cons c cs ih =>
    obtain ⟨hle, hall⟩ := ih
    have hc := length_utf8EncodeChar_pos c
    rcases hp : p c with _ | _
    · rw [List.filter_cons_of_neg (by simp [hp]), bytes_cons, List.length_append]
      exact ⟨by omega, fun hlength ↦ by omega⟩
    · rw [List.filter_cons_of_pos hp, bytes_cons, bytes_cons, List.length_append,
        List.length_append]
      exact ⟨by omega, fun hlength ↦ List.forall_mem_cons.mpr ⟨hp, hall (by omega)⟩⟩

/-- The byte of a comma stands for no other character. -/
theorem eq_comma_of_mem {c : Char} (h : 0x2C ∈ String.utf8EncodeChar c) : c = ',' := by
  have hbyte : ∀ k < 256, (0x2C : UInt8) = UInt8.ofNat k → k = 0x2C := by
    intro k hk heq
    have hnat := congrArg UInt8.toNat heq
    rw [UInt8.toNat_ofNat_of_lt' hk] at hnat
    exact hnat.symm
  -- All bytes of a character that has several are large.
  have hlarge : ∀ k, 0x80 ≤ k → k < 256 → (0x2C : UInt8) ≠ UInt8.ofNat k :=
    fun k hk hlt heq ↦ absurd (hbyte k hlt heq) (by omega)
  rw [String.utf8EncodeChar] at h
  split_ifs at h with hone htwo hthree
  · have hcode := hbyte _ (by omega) (List.mem_singleton.mp h)
    exact Char.ext (UInt32.toNat_inj.mp hcode)
  all_goals
    simp (disch := omega) only [List.mem_cons, List.not_mem_nil, hlarge, or_false] at h

theorem comma_not_mem_bytes {cs : List Char} (h : ',' ∉ cs) : 0x2C ∉ bytes cs := by
  intro hmem
  obtain ⟨c, hc, hbyte⟩ := List.mem_flatMap.mp hmem
  exact h (eq_comma_of_mem hbyte ▸ hc)

/-! ## Escapes -/

namespace Escape

variable {e : List Char} {b : List UInt8}

/-- An escape has no fewer characters than bytes it stands for. -/
theorem length_le (h : Escape e b) : b.length ≤ e.length := by
  have hpoint (c : Char) : (String.utf8EncodeChar c).length ≤ 4 := by
    rw [String.length_utf8EncodeChar]
    exact c.utf8Size_le_four
  cases h with
  | letter => exact Nat.le_refl 1
  | octal hlength => simp [hlength]
  | byte hlength => simp [hlength]
  | @short _ c hlength =>
    have := hpoint c
    simp only [List.length_cons, hlength]
    omega
  | @long _ c hlength =>
    have := hpoint c
    simp only [List.length_cons, hlength]
    omega

theorem comma_not_mem (h : Escape e b) : ',' ∉ e := by
  cases h with
  | letter hletter =>
    rintro (_ | ⟨_, ⟨⟩⟩)
    cases hletter
  | octal _ hdigits => exact not_mem_of_numeral hdigits (by decide)
  | byte _ hdigits | short _ hdigits | long _ hdigits =>
    exact List.not_mem_cons_of_ne_of_not_mem (by decide) (not_mem_of_numeral hdigits (by decide))

end Escape

/-! ## Reading literals -/

section

variable {cs : List Char} {bs : List UInt8} {c : Char}

theorem spells_nil_iff : Spells [] bs ↔ bs = [] :=
  ⟨fun h ↦ by cases h; rfl, fun h ↦ h ▸ .nil⟩

theorem spells_plain_iff (hc : c ∉ special) : Spells (c :: cs) bs ↔
    ∃ rest, bs = String.utf8EncodeChar c ++ rest ∧ Spells cs rest := by
  constructor
  · intro h
    cases h with
    | plain _ h => exact ⟨_, rfl, h⟩
    | escaped => exact absurd (by decide) hc
  · rintro ⟨rest, rfl, h⟩
    exact .plain hc h

/-- An escape stands behind every backslash. -/
theorem exists_escape (h : Spells ('\\' :: cs) bs) : ∃ e behind b rest,
    Escape e b ∧ Spells behind rest ∧ cs = e ++ behind ∧ bs = b ++ rest := by
  cases h with
  | plain hspecial => exact absurd (by decide) hspecial
  | escaped he h => exact ⟨_, _, _, _, he, h, rfl, rfl⟩

/-- An escape in digits to base eight begins with one of them. -/
theorem exists_octal_of_append {digits behind : List Char} {n : Nat} (hlength : digits.length = 3)
    (hdigits : numeral 8 digits = some n) (h : c :: cs = digits ++ behind) :
    ∃ k < 8, Json.Parser.hexValue c = some k := by
  cases digits with
  | nil => cases hlength
  | cons d digits =>
    obtain ⟨rfl, -⟩ := List.cons.inj h
    exact exists_hexValue_of_mem hdigits c List.mem_cons_self

theorem hexValue_ne_of_letter {b : UInt8} (hc : letters.lookup c = some b) :
    ∀ k < 8, Json.Parser.hexValue c ≠ some k := by
  have hall : ∀ p ∈ letters, ∀ k < 8, Json.Parser.hexValue p.1 ≠ some k := by decide
  obtain ⟨before, behind, hletters, -⟩ := List.lookup_eq_some_iff.mp hc
  exact hall (c, b) (hletters ▸ List.mem_append_right before List.mem_cons_self)

theorem spells_letter_iff {b : UInt8} (hc : letters.lookup c = some b) :
    Spells ('\\' :: c :: cs) bs ↔ ∃ rest, bs = b :: rest ∧ Spells cs rest := by
  constructor
  · intro h
    obtain ⟨e, behind, b', rest, he, hrest, hcs, rfl⟩ := exists_escape h
    cases he with
    | letter hc' =>
      obtain ⟨rfl, rfl⟩ := List.cons.inj hcs
      cases hc.symm.trans hc'
      exact ⟨rest, rfl, hrest⟩
    | octal hlength hdigits =>
      obtain ⟨k, hk, hvalue⟩ := exists_octal_of_append hlength hdigits hcs
      exact absurd hvalue (hexValue_ne_of_letter hc k hk)
    | byte | short | long =>
      obtain ⟨rfl, -⟩ := List.cons.inj hcs
      cases hc
  · rintro ⟨rest, rfl, h⟩
    exact .escaped (.letter hc) h

theorem spells_short_iff {digits : List Char} (hlength : digits.length = 4) :
    Spells ('\\' :: 'u' :: (digits ++ cs)) bs ↔ ∃ c rest,
      numeral 16 digits = some (Char.toNat c) ∧ bs = String.utf8EncodeChar c ++ rest ∧
        Spells cs rest := by
  constructor
  · intro h
    obtain ⟨e, behind, b, rest, he, hrest, hcs, rfl⟩ := exists_escape h
    cases he with
    | letter hc =>
      obtain ⟨rfl, -⟩ := List.cons.inj hcs
      cases hc
    | octal hlength' hdigits =>
      obtain ⟨k, hk, hvalue⟩ := exists_octal_of_append hlength' hdigits hcs
      cases hvalue
    | @short digits' c hlength' hdigits =>
      obtain ⟨-, hcs⟩ := List.cons.inj hcs
      obtain ⟨rfl, rfl⟩ := List.append_inj hcs (hlength.trans hlength'.symm)
      exact ⟨c, rest, hdigits, rfl, hrest⟩
    | byte | long =>
      obtain ⟨hmark, -⟩ := List.cons.inj hcs
      exact absurd hmark (by decide)
  · rintro ⟨c, rest, hdigits, rfl, h⟩
    exact .escaped (.short hlength hdigits) h

end

/-! ## Literals without escapes -/

namespace Spells

variable {cs : List Char} {bs : List UInt8}

/-- Characters that are nothing special stand for themselves. -/
theorem of_forall_not_mem (h : ∀ c ∈ cs, c ∉ special) : Spells cs (bytes cs) := by
  induction cs with
  | nil => exact .nil
  | cons c rest ih =>
    obtain ⟨hc, hrest⟩ := List.forall_mem_cons.mp h
    exact .plain hc (ih hrest)

/-- Characters stand for no more bytes than they have, and for as many only if they have nothing
special among them. -/
theorem plain_of_length_le (h : Spells cs bs) : bs.length ≤ (bytes cs).length ∧
    ((bytes cs).length ≤ bs.length → ∀ c ∈ cs, c ∉ special) := by
  induction h with
  | nil => exact ⟨Nat.le_refl 0, fun _ c hc ↦ absurd hc List.not_mem_nil⟩
  | plain hc _ ih =>
    obtain ⟨hle, hplain⟩ := ih
    rw [bytes_cons, List.length_append, List.length_append]
    refine ⟨by omega, fun hlength ↦ List.forall_mem_cons.mpr ⟨hc, hplain (by omega)⟩⟩
  | @escaped e cs b bs he _ ih =>
    have hshort : b.length ≤ (bytes e).length :=
      Nat.le_trans he.length_le (length_le_length_bytes e)
    have hslash : (String.utf8EncodeChar '\\').length = 1 := by decide
    rw [bytes_cons, bytes_append, List.length_append, List.length_append, List.length_append,
      hslash]
    exact ⟨by omega, fun hlength ↦ by omega⟩

/-- What is in front of a character begins with everything that does not have the character. -/
theorem exists_of_append_cons_eq {c : Char} {e rest more : List Char} (hc : c ∉ e)
    (h : cs ++ c :: rest = e ++ more) : ∃ front, cs = e ++ front ∧ more = front ++ c :: rest := by
  rcases List.append_eq_append_iff.mp h with ⟨inside, rfl, hmore⟩ | hfront
  · cases inside with
    | nil => exact ⟨[], by simp, hmore.symm⟩
    | cons d inside =>
      obtain ⟨rfl, -⟩ := List.cons.inj hmore
      exact absurd (List.mem_append_right cs List.mem_cons_self) hc
  · exact hfront

/-- A comma stands for itself wherever it is. -/
theorem exists_of_append_comma {rest : List Char} (h : Spells (cs ++ ',' :: rest) bs) :
    ∃ before behind, bs = before ++ 0x2C :: behind ∧ Spells cs before ∧ Spells rest behind := by
  generalize hall : cs ++ ',' :: rest = all at h
  induction h generalizing cs with
  | nil => exact absurd hall (List.append_ne_nil_of_right_ne_nil _ (List.cons_ne_nil _ _))
  | @plain c more bs hc hmore ih =>
    cases cs with
    | nil =>
      cases hall
      exact ⟨[], bs, rfl, .nil, hmore⟩
    | cons d cs =>
      obtain ⟨rfl, hrest⟩ := List.cons.inj hall
      obtain ⟨before, behind, rfl, hbefore, hbehind⟩ := ih hrest
      exact ⟨String.utf8EncodeChar d ++ before, behind, (List.append_assoc _ _ _).symm,
        .plain hc hbefore, hbehind⟩
  | @escaped e more b bs he hmore ih =>
    cases cs with
    | nil => cases hall
    | cons d cs =>
      obtain ⟨rfl, hrest⟩ := List.cons.inj hall
      obtain ⟨front, rfl, hmore'⟩ := exists_of_append_cons_eq he.comma_not_mem hrest
      obtain ⟨before, behind, rfl, hbefore, hbehind⟩ := ih hmore'.symm
      exact ⟨b ++ before, behind, (List.append_assoc _ _ _).symm, .escaped he hbefore, hbehind⟩

end Spells

end SchemaTypes.Literal
