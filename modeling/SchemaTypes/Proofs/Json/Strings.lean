import Mathlib.Tactic.SplitIfs
import SchemaTypes.Json.Parser
import SchemaTypes.Json.Writer

/-!
# Strings are read as they are written

A character of a string is written as itself or as an escape, and beyond the basic plane as two
surrogates. What the escapes denote are the code units of the string, and these make up its
characters again (`Json.string_stringText`), so that it can be told where a string ends
(`Json.eq_of_stringText_append_eq`).
-/

namespace SchemaTypes

open Json.Parser

namespace Json

theorem hexValue_hexDigit {n : Nat} (h : n < 16) : hexValue (Text.hexDigit n) = some n := by
  have hall : ∀ n < 16, hexValue (Text.hexDigit n) = some n := by decide
  exact hall n h

theorem stringUnits_unitEscape {unit : Nat} (h : unit < 0x10000) (rest : List Char) :
    stringUnits (unitEscape unit ++ rest) =
      (stringUnits rest).map fun (units, tail) ↦ (unit :: units, tail) := by
  have hhex : Text.hex 4 unit = [Text.hexDigit (unit / 16 / 16 / 16 % 16),
      Text.hexDigit (unit / 16 / 16 % 16), Text.hexDigit (unit / 16 % 16),
      Text.hexDigit (unit % 16)] := rfl
  have hdigits (k : Nat) : hexValue (Text.hexDigit (k % 16)) = some (k % 16) :=
    hexValue_hexDigit (Nat.mod_lt k (by decide))
  have hsum : (unit / 16 / 16 / 16 % 16 * 16 + unit / 16 / 16 % 16) * 256 + unit / 16 % 16 * 16 +
      unit % 16 = unit := by omega
  rw [unitEscape, hhex]
  simp only [List.cons_append, List.nil_append, stringUnits, hexUnit, hdigits, Option.bind_eq_bind,
    Option.bind_some, Option.pure_def, hsum]
  cases stringUnits rest <;> rfl

/-- The code units of a character: two surrogates beyond the basic plane. -/
def charUnits (c : Char) : List Nat :=
  if c.toNat < 0x10000 then [c.toNat]
  else [0xD800 + (c.toNat - 0x10000) / 0x400, 0xDC00 + (c.toNat - 0x10000) % 0x400]

theorem toNat_lt (c : Char) : c.toNat < 0x110000 := by
  rcases c.valid with h | h <;> simp only [Char.toNat] at * <;> omega

theorem not_surrogate (c : Char) : ¬ (0xD800 ≤ c.toNat ∧ c.toNat ≤ 0xDFFF) := by
  rintro ⟨hlow, hhigh⟩
  rcases c.valid with h | h
  all_goals simp only [Char.toNat] at *; omega

/-- The characters that are written with an escape of their own. -/
def letterEscapes : List (Char × Char) :=
  [('"', '"'), ('\\', '\\'), ('\n', 'n'), ('\r', 'r'), ('\t', 't'), ('\x0c', 'f'), ('\x08', 'b')]

/-- How a character of a string is written. -/
inductive WritesChar (c : Char) : List Char → Prop
  | letter {e : Char} : (c, e) ∈ letterEscapes → WritesChar c ['\\', e]
  | plain : c ∉ letterEscapes.map Prod.fst → 0x20 ≤ c.toNat → c.toNat ≤ 0x7E → WritesChar c [c]
  | unit : c.toNat < 0x10000 → WritesChar c (unitEscape c.toNat)
  | surrogates : 0x10000 ≤ c.toNat →
      WritesChar c (unitEscape (0xD800 + (c.toNat - 0x10000) / 0x400) ++
        unitEscape (0xDC00 + (c.toNat - 0x10000) % 0x400))

theorem writesChar_stringChar (c : Char) : WritesChar c (stringChar c) := by
  have hletter : ∀ d e, (d, e) ∈ letterEscapes → (c == d) = true → WritesChar c ['\\', e] :=
    fun d e hmem hcd ↦ .letter (eq_of_beq hcd ▸ hmem)
  unfold stringChar
  split_ifs with hquote hslash hfeed hreturn htab hform hback hplain hsmall
  · exact hletter _ _ (by decide) hquote
  · exact hletter _ _ (by decide) hslash
  · exact hletter _ _ (by decide) hfeed
  · exact hletter _ _ (by decide) hreturn
  · exact hletter _ _ (by decide) htab
  · exact hletter _ _ (by decide) hform
  · exact hletter _ _ (by decide) hback
  · refine .plain ?_ hplain.1 hplain.2
    simp_all [letterEscapes]
  · exact .unit hsmall
  · exact .surrogates (Nat.le_of_not_lt hsmall)

theorem stringUnits_stringChar (c : Char) (rest : List Char) :
    stringUnits (stringChar c ++ rest) =
      (stringUnits rest).map fun (units, tail) ↦ (charUnits c ++ units, tail) := by
  have hform := writesChar_stringChar c
  generalize stringChar c = text at hform ⊢
  cases hform with
  | @letter e hletter =>
    have hall : ∀ p ∈ letterEscapes,
        escaped p.2 = some p.1.toNat ∧ p.2 ≠ 'u' ∧ p.1.toNat < 0x10000 := by decide
    obtain ⟨he, hu, hd⟩ := hall (c, e) hletter
    rw [List.cons_append, List.singleton_append, stringUnits, he, charUnits, if_pos hd]
    · cases stringUnits rest <;> rfl
    · rintro _ _ _ _ _ rfl
      exact fun _ ↦ hu rfl
  | plain hfree hlow hhigh =>
    have hquote : c ≠ '"' := by
      rintro rfl
      exact hfree (by decide)
    have hslash : c ≠ '\\' := by
      rintro rfl
      exact hfree (by decide)
    have hallowed : ¬ (c == '\\' || decide (c.toNat < 0x20)) = true := by
      simp only [Bool.or_eq_true, beq_iff_eq, decide_eq_true_eq, hslash, false_or]
      omega
    rw [List.singleton_append, stringUnits, if_neg hallowed, charUnits, if_pos (by omega)]
    · cases stringUnits rest <;> rfl
    · exact hquote
    · exact fun _ _ _ _ _ h ↦ absurd h hslash
    · exact fun _ _ h ↦ absurd h hslash
  | unit hsmall =>
    rw [charUnits, if_pos hsmall]
    exact stringUnits_unitEscape hsmall rest
  | surrogates hlarge =>
    have hbound := toNat_lt c
    rw [charUnits, if_neg (Nat.not_lt.mpr hlarge), List.append_assoc,
      stringUnits_unitEscape (by omega), stringUnits_unitEscape (by omega)]
    cases stringUnits rest <;> rfl

theorem pairUnits_charUnits (c : Char) (rest : List Nat) :
    pairUnits (charUnits c ++ rest) = c :: pairUnits rest := by
  have hrange := not_surrogate c
  have hbound := toNat_lt c
  unfold charUnits
  split
  · have hfirst : ¬ (0xD800 ≤ c.toNat ∧ c.toNat ≤ 0xDBFF) := by omega
    cases rest with
    | nil => simp only [List.append_nil, pairUnits, if_neg hrange, Char.ofNat_toNat]
    | cons v more =>
      rw [List.singleton_append, pairUnits, if_neg fun h ↦ hfirst ⟨h.1, h.2.1⟩, if_neg hrange,
        Char.ofNat_toNat]
  · have hsum : 0x10000 + (0xD800 + (c.toNat - 0x10000) / 0x400 - 0xD800) * 0x400 +
        (0xDC00 + (c.toNat - 0x10000) % 0x400 - 0xDC00) = c.toNat := by omega
    rw [List.cons_append, List.singleton_append, pairUnits, if_pos (by omega), hsum,
      Char.ofNat_toNat]

/-- **A string is read as it is written**, whatever follows it. -/
theorem string_stringText (s : String) (rest : List Char) :
    string (s.toList.flatMap stringChar ++ '"' :: rest) = some (s, rest) := by
  have hunits : ∀ cs : List Char, stringUnits (cs.flatMap stringChar ++ '"' :: rest) =
      some (cs.flatMap charUnits, rest) := by
    intro cs
    induction cs with
    | nil => rw [List.flatMap_nil, List.nil_append, stringUnits]; rfl
    | cons c more ih => 
      rw [List.flatMap_cons, List.append_assoc, stringUnits_stringChar, ih]
      rfl
  have hpairs : ∀ cs : List Char, pairUnits (cs.flatMap charUnits) = cs := by
    intro cs
    induction cs with
    | nil => rfl
    | cons c more ih => rw [List.flatMap_cons, pairUnits_charUnits, ih]
  rw [string, hunits]
  simp [hpairs]

/-- Where a string ends can be told from its text. -/
theorem eq_of_stringText_append_eq {s t : String} {a b : List Char}
    (h : stringText s ++ a = stringText t ++ b) : s = t ∧ a = b := by
  have hrest : ∀ (u : String) (rest : List Char), stringText u ++ rest =
      '"' :: (u.toList.flatMap stringChar ++ '"' :: rest) := by
    intro u rest
    rw [stringText, List.cons_append, List.cons_append, List.append_assoc]
    rfl
  rw [hrest, hrest] at h
  have hread := congrArg string (List.cons.inj h).2
  rw [string_stringText, string_stringText] at hread
  exact Prod.mk.inj (Option.some.inj hread)

end Json

end SchemaTypes
