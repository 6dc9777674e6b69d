import SchemaTypes.Json.Parser
import SchemaTypes.Proofs.Number.Shortest

/-!
# Texts of numbers

The text of a number is a JSON number with a point or an exponent, or one of three words. What it
denotes is read off it again (`Numeral.readValue_eq`), and it is a value that is rounded to the
number (`numeral_magnitudeText`). So two numbers have different texts (`Binary64.eq_of_text_eq`),
none of which is the text of an integer (`Binary64.exists_mark`).
-/

namespace SchemaTypes.Number

open Json.Parser

/-! ## Rows of digits -/

/-- All characters are decimal digits. -/
def IsDigits (cs : List Char) : Prop := ∀ c ∈ cs, c.isDigit = true

theorem isDigits_decimalDigits (n : Nat) : IsDigits (decimalDigits n) := by
  intro c h
  rw [decimalDigits, Nat.toString_eq_ofList_toDigits, String.toList_ofList] at h
  exact Nat.isDigit_of_mem_toDigits (by decide) (by decide) h

theorem decimalDigits_ne_nil (n : Nat) : decimalDigits n ≠ [] := by
  rw [decimalDigits, Nat.toString_eq_ofList_toDigits, String.toList_ofList]
  exact Nat.toDigits_ne_nil

theorem isDigits_replicate_zero (n : Nat) : IsDigits (List.replicate n '0') := by
  intro c h
  rw [(List.mem_replicate.mp h).2]
  rfl

theorem IsDigits.append {xs ys : List Char} (hxs : IsDigits xs) (hys : IsDigits ys) :
    IsDigits (xs ++ ys) := by
  intro c hc
  rcases List.mem_append.mp hc with hc | hc
  · exact hxs c hc
  · exact hys c hc

theorem IsDigits.take {cs : List Char} (h : IsDigits cs) (n : Nat) : IsDigits (cs.take n) :=
  fun c hc ↦ h c (List.mem_of_mem_take hc)

theorem IsDigits.drop {cs : List Char} (h : IsDigits cs) (n : Nat) : IsDigits (cs.drop n) :=
  fun c hc ↦ h c (List.mem_of_mem_drop hc)

theorem digitsValue_eq (cs : List Char) : digitsValue cs = Nat.ofDigitChars 10 cs 0 :=
  Nat.ofDigitChars_eq_foldl.symm

theorem digitsValue_append (xs ys : List Char) :
    digitsValue (xs ++ ys) = digitsValue xs * 10 ^ ys.length + digitsValue ys := by
  rw [digitsValue_eq, digitsValue_eq, digitsValue_eq, Nat.ofDigitChars_append,
    Nat.ofDigitChars_eq_ofDigitChars_zero, Nat.mul_comm]

theorem digitsValue_replicate_zero (n : Nat) : digitsValue (List.replicate n '0') = 0 := by
  rw [digitsValue_eq, Nat.ofDigitChars_replicate_zero, Nat.mul_zero]

theorem digitsValue_decimalDigits (n : Nat) : digitsValue (decimalDigits n) = n := by
  rw [digitsValue_eq, decimalDigits, Nat.toString_eq_ofList_toDigits, String.toList_ofList,
    Nat.ofDigitChars_ten_toDigits]

/-- The value of a row of digits of which some stand in front of the point. -/
def placed (cs : List Char) (point : Int) : ℚ := digitsValue cs * (10 : ℚ) ^ (point - cs.length)

/-- Zeros at the end add nothing. -/
theorem placed_append_zeros (cs : List Char) (n : Nat) (point : Int) :
    placed (cs ++ List.replicate n '0') point = placed cs point := by
  have hten : (10 : ℚ) ≠ 0 := by norm_num
  have hplaces : (point - cs.length : Int) = n + (point - (cs.length + n : Nat)) := by
    push_cast
    ring
  rw [placed, placed, digitsValue_append, digitsValue_replicate_zero, List.length_append,
    List.length_replicate, hplaces, zpow_add₀ hten, zpow_natCast]
  push_cast
  ring

/-- Zeros in front move the point. -/
theorem placed_zeros_append (cs : List Char) (n : Nat) (point : Int) :
    placed (List.replicate n '0' ++ cs) point = placed cs (point - n) := by
  have hplaces : point - (n + cs.length : Nat) = point - n - cs.length := by omega
  rw [placed, placed, digitsValue_append, digitsValue_replicate_zero, List.length_append,
    List.length_replicate, hplaces, Nat.zero_mul, Nat.zero_add]

theorem placed_trimZeros (cs : List Char) (point : Int) :
    placed (trimZeros cs) point = placed cs point := by
  obtain ⟨n, hn⟩ : ∃ n, cs = trimZeros cs ++ List.replicate n '0' := by
    refine ⟨(cs.reverse.takeWhile (· == '0')).length, ?_⟩
    have hzeros : cs.reverse.takeWhile (· == '0') =
        List.replicate (cs.reverse.takeWhile (· == '0')).length '0' :=
      List.eq_replicate_iff.mpr ⟨rfl, fun c hc ↦ by
        simpa using List.all_eq_true.mp List.all_takeWhile c hc⟩
    rw [← List.reverse_replicate, ← hzeros, trimZeros, ← List.reverse_append,
      List.takeWhile_append_dropWhile, List.reverse_reverse]
  rw [← placed_append_zeros (trimZeros cs) n, ← hn]

/-! ## Reading a number -/

/-- The value that is read of a text without a sign. -/
def readValue (cs : List Char) : ℚ :=
  let (whole, rest) := digits cs
  let (part, rest) := fraction rest
  let (power, _) := exponent rest
  placed (whole ++ part) (power.getD 0 + whole.length)

/-- The next character, if there is one, is no digit. -/
def EndsDigits (rest : List Char) : Prop := ∀ c ∈ rest.head?, c.isDigit = false

theorem digits_append {cs rest : List Char} (hcs : IsDigits cs) (hrest : EndsDigits rest) :
    digits (cs ++ rest) = (cs, rest) := by
  have htake : rest.takeWhile Char.isDigit = [] ∧ rest.dropWhile Char.isDigit = rest := by
    cases rest with
    | nil => exact ⟨rfl, rfl⟩
    | cons c more =>
      have hc : ¬ c.isDigit = true := by simp [hrest c rfl]
      exact ⟨List.takeWhile_cons_of_neg hc, List.dropWhile_cons_of_neg hc⟩
  rw [digits, List.takeWhile_append_of_pos hcs, List.dropWhile_append_of_pos hcs, htake.1,
    htake.2, List.append_nil]

theorem fraction_point {cs rest : List Char} (hcs : IsDigits cs) (hne : cs ≠ [])
    (hrest : EndsDigits rest) : fraction ('.' :: cs ++ rest) = (cs, rest) := by
  rw [List.cons_append, fraction, digits_append hcs hrest]
  cases cs with
  | nil => exact absurd rfl hne
  | cons c more => rfl

theorem exponent_written {cs : List Char} (negative : Bool) (hcs : IsDigits cs) (hne : cs ≠ []) :
    exponent ('e' :: (if negative then '-' else '+') :: cs) =
      (some (if negative then -(digitsValue cs : Int) else digitsValue cs), []) := by
  have hdigits : digits cs = (cs, []) := by
    have hends : EndsDigits [] := fun c hc ↦ by cases hc
    simpa using digits_append hcs hends
  cases cs with
  | nil => exact absurd rfl hne
  | cons c more =>
    cases negative <;> simp [exponent, hdigits]

/-- A text without a sign that is written with a point or an exponent, and the value that it
denotes. -/
inductive Numeral : List Char → ℚ → Prop
  | positional {whole part : List Char} :
      IsDigits whole → whole ≠ [] → IsDigits part → part ≠ [] →
        Numeral (whole ++ '.' :: part) (placed (whole ++ part) whole.length)
  | scientific {whole part power : List Char} (negative : Bool) :
      IsDigits whole → whole ≠ [] → IsDigits part → IsDigits power → power ≠ [] →
        Numeral (whole ++ (if part.isEmpty then [] else '.' :: part) ++
            'e' :: (if negative then '-' else '+') :: power)
          (placed (whole ++ part)
            ((if negative then -(digitsValue power : Int) else digitsValue power) + whole.length))

theorem Numeral.readValue_eq {cs : List Char} {x : ℚ} (h : Numeral cs x) :
    readValue cs = x := by
  have hnil : EndsDigits [] := fun c hc ↦ by cases hc
  have hcons : ∀ {c : Char} {rest : List Char}, c.isDigit = false → EndsDigits (c :: rest) := by
    intro c rest hc d hd
    cases hd
    exact hc
  cases h with
  | @positional whole part hwhole _ hpart hne =>
    have hfraction := fraction_point hpart hne hnil
    rw [List.append_nil] at hfraction
    rw [readValue, digits_append hwhole (hcons rfl)]
    dsimp only
    rw [hfraction]
    simp [exponent]
  | @scientific whole part power negative hwhole _ hpart hpower hne =>
    have hexponent := exponent_written negative hpower hne
    cases part with
    | nil =>
      have hfraction : ∀ rest, fraction ('e' :: rest) = ([], 'e' :: rest) := fun _ ↦ rfl
      rw [List.isEmpty_nil, if_pos rfl, List.append_nil, readValue,
        digits_append hwhole (hcons rfl)]
      dsimp only
      rw [hfraction]
      dsimp only
      rw [hexponent, List.append_nil]
      rfl
    | cons c more =>
      rw [List.isEmpty_cons, if_neg (by simp), List.append_assoc, readValue, List.cons_append,
        digits_append hwhole (hcons rfl), ← List.cons_append]
      dsimp only
      rw [fraction_point hpart (by simp) (hcons rfl)]
      dsimp only
      rw [hexponent]
      rfl

/-- A number starts with a digit. -/
theorem Numeral.exists_eq_cons {cs : List Char} {x : ℚ} (h : Numeral cs x) :
    ∃ c more, cs = c :: more ∧ c.isDigit = true := by
  cases h with
  | @positional whole part hwhole hne =>
    obtain ⟨c, more, rfl⟩ := List.exists_cons_of_ne_nil hne
    exact ⟨c, _, rfl, hwhole c List.mem_cons_self⟩
  | @scientific whole part power negative hwhole hne =>
    obtain ⟨c, more, rfl⟩ := List.exists_cons_of_ne_nil hne
    exact ⟨c, _, rfl, hwhole c List.mem_cons_self⟩

/-- A number is made of digits, signs, a point and the letter of the exponent. -/
theorem Numeral.mem_cases {cs : List Char} {x : ℚ} (h : Numeral cs x) {c : Char}
    (hc : c ∈ cs) : c.isDigit = true ∨ c ∈ ['.', 'e', '+', '-'] := by
  cases h with
  | @positional whole part hwhole _ hpart =>
    rcases List.mem_append.mp hc with hc | hc
    · exact .inl (hwhole c hc)
    · rcases List.mem_cons.mp hc with rfl | hc
      · exact .inr (by simp)
      · exact .inl (hpart c hc)
  | @scientific whole part power negative hwhole _ hpart hpower =>
    rcases List.mem_append.mp hc with hc | hc
    · rcases List.mem_append.mp hc with hc | hc
      · exact .inl (hwhole c hc)
      · split at hc
        · cases hc
        · rcases List.mem_cons.mp hc with rfl | hc
          · exact .inr (by simp)
          · exact .inl (hpart c hc)
    · rcases List.mem_cons.mp hc with rfl | hc
      · exact .inr (by simp)
      · rcases List.mem_cons.mp hc with rfl | hc
        · cases negative <;> exact .inr (by simp)
        · exact .inl (hpower c hc)

/-- A number shows a point or an exponent. -/
theorem Numeral.exists_mark {cs : List Char} {x : ℚ} (h : Numeral cs x) :
    '.' ∈ cs ∨ 'e' ∈ cs := by
  cases h with
  | positional => exact .inl (by simp)
  | scientific => exact .inr (by simp)

section Layout

variable {ds : List Char} (hds : IsDigits ds) (hne : ds ≠ [])

include hds hne

/-- Digits that stand behind a point, and behind zeros there. -/
theorem numeral_behind_point (zeros : Nat) :
    Numeral ('0' :: '.' :: (List.replicate zeros '0' ++ ds)) (placed ds (-zeros)) := by
  have hnumeral := Numeral.positional (isDigits_replicate_zero 1) (by simp)
    ((isDigits_replicate_zero zeros).append hds) (by simp [hne])
  have hpoint : ((List.replicate 1 '0').length - (1 : Nat) - zeros : Int) = -zeros := by
    rw [List.length_replicate]
    omega
  rwa [placed_zeros_append, placed_zeros_append, hpoint] at hnumeral

omit hne in
/-- Digits that stand on both sides of a point. -/
theorem numeral_around_point {n : Nat} (hpos : 0 < n) (hlong : n < ds.length) :
    Numeral (ds.take n ++ '.' :: ds.drop n) (placed ds n) := by
  have hlength : (ds.take n).length = n := by rw [List.length_take]; omega
  have hpart : ds.drop n ≠ [] := by rw [ne_eq, List.drop_eq_nil_iff]; omega
  have hwhole : ds.take n ≠ [] := by rw [← List.length_pos_iff]; omega
  have hnumeral := Numeral.positional (hds.take n) hwhole (hds.drop n) hpart
  rwa [List.take_append_drop, hlength] at hnumeral

/-- Digits that stand in front of a point, and in front of zeros there. -/
theorem numeral_before_point (zeros : Nat) :
    Numeral (ds ++ List.replicate zeros '0' ++ ['.', '0'])
      (placed ds ((ds.length + zeros : Nat) : Int)) := by
  have hnumeral := Numeral.positional (hds.append (isDigits_replicate_zero zeros)) (by simp [hne])
    (isDigits_replicate_zero 1) (by simp)
  rwa [placed_append_zeros, placed_append_zeros, List.length_append, List.length_replicate]
    at hnumeral

/-- Digits with a point behind the first one, and an exponent of two digits at least. -/
theorem numeral_exponent (power : Int) :
    Numeral (ds.take 1 ++ (if ds.length ≤ 1 then [] else '.' :: ds.drop 1) ++
      'e' :: (if power < 0 then '-' else '+') ::
        (List.replicate (2 - (decimalDigits power.natAbs).length) '0' ++
          decimalDigits power.natAbs)) (placed ds (power + 1)) := by
  have hpower : IsDigits (List.replicate (2 - (decimalDigits power.natAbs).length) '0' ++
      decimalDigits power.natAbs) :=
    (isDigits_replicate_zero _).append (isDigits_decimalDigits _)
  have hvalue : digitsValue (List.replicate (2 - (decimalDigits power.natAbs).length) '0' ++
      decimalDigits power.natAbs) = power.natAbs := by
    rw [digitsValue_append, digitsValue_replicate_zero, digitsValue_decimalDigits]
    omega
  have hnumeral := Numeral.scientific (decide (power < 0)) (hds.take 1) (by simp [hne])
    (hds.drop 1) hpower (by simp [decimalDigits_ne_nil])
  have hlength : (ds.take 1).length = 1 := by
    have := List.length_pos_iff.mpr hne
    rw [List.length_take]
    omega
  have hpoint : ((if decide (power < 0) = true then -(power.natAbs : Int) else power.natAbs) +
      (1 : Nat) : Int) = power + 1 := by
    split <;> simp only [decide_eq_true_eq] at * <;> omega
  rw [List.take_append_drop, hvalue, hlength, hpoint] at hnumeral
  have hshort : ds.tail = [] ↔ ds.length ≤ 1 := by rw [← List.drop_one, List.drop_eq_nil_iff]
  simpa [hshort] using hnumeral

/-- **The written form of digits is a number that denotes what they stand for.** -/
theorem numeral_layout (point : Int) : Numeral (layout ds point) (placed ds point) := by
  unfold layout
  split
  · split
    · next hsmall =>
      obtain ⟨zeros, rfl⟩ : ∃ zeros : Nat, point = -zeros := ⟨(-point).toNat, by omega⟩
      rw [neg_neg, Int.toNat_natCast]
      exact numeral_behind_point hds hne zeros
    · next hlarge =>
      obtain ⟨n, rfl⟩ : ∃ n : Nat, point = n := ⟨point.toNat, by omega⟩
      rw [Int.toNat_natCast]
      dsimp only
      rcases Nat.lt_or_ge n ds.length with hlong | hlong
      · have hlength : (ds.take n).length = n := by rw [List.length_take]; omega
        rw [hlength, Nat.sub_self, List.replicate_zero, List.append_nil,
          if_neg (by simpa using hlong)]
        exact numeral_around_point hds (by omega) hlong
      · obtain ⟨zeros, rfl⟩ := Nat.exists_eq_add_of_le hlong
        rw [List.take_of_length_le hlong, if_pos (by simp), Nat.add_sub_cancel_left]
        exact numeral_before_point hds hne zeros
  · have hnumeral := numeral_exponent hds hne (point - 1)
    rwa [sub_add_cancel] at hnumeral

end Layout

/-! ## Texts of numbers -/

open RoundingInterval

/-- The text of a positive number is a number of which it alone is the nearest one. -/
theorem numeral_magnitudeText {m : Nat} (hpos : 0 < m) (hfinite : m < Binary64.infinityBits) :
    ∃ v, Numeral (magnitudeText m) v ∧ (ofMagnitude m).Contains v := by
  have hcontains := contains_shortest hpos hfinite
  set x := (ofMagnitude m).shortest with hx
  have hvalue : placed (trimZeros (decimalDigits x.digits))
      ((decimalDigits x.digits).length + x.exponent) = x.value := by
    rw [placed_trimZeros, placed, digitsValue_decimalDigits, add_sub_cancel_left]
    rfl
  have hne : trimZeros (decimalDigits x.digits) ≠ [] := by
    intro hnil
    rw [hnil, placed, digitsValue] at hvalue
    have hzero : x.value = 0 := by rw [← hvalue]; simp
    exact (pos_of_contains hpos hfinite hcontains).ne' hzero
  have hdigits : IsDigits (trimZeros (decimalDigits x.digits)) := by
    intro c hc
    refine isDigits_decimalDigits x.digits c ?_
    have hc := (List.dropWhile_sublist _).subset (List.mem_reverse.mp hc)
    exact List.mem_reverse.mp hc
  refine ⟨x.value, ?_, hcontains⟩
  rw [magnitudeText, if_neg hpos.ne', ← hvalue]
  exact numeral_layout hdigits hne _

theorem numeral_zero : Numeral (magnitudeText 0) 0 := by
  have h := Numeral.positional (isDigits_replicate_zero 1) (by simp) (isDigits_replicate_zero 1)
    (by simp)
  have hzero : placed (List.replicate 1 '0' ++ List.replicate 1 '0')
      (List.replicate 1 '0').length = 0 := by
    simp [placed, digitsValue]
  rwa [hzero] at h

theorem exists_numeral {m : Nat} (hfinite : m < Binary64.infinityBits) :
    ∃ v, Numeral (magnitudeText m) v := by
  rcases Nat.eq_zero_or_pos m with rfl | hpos
  · exact ⟨0, numeral_zero⟩
  · obtain ⟨v, hv, -⟩ := numeral_magnitudeText hpos hfinite
    exact ⟨v, hv⟩

/-- Finite numbers without a sign have different texts. -/
theorem eq_of_magnitudeText_eq {m n : Nat} (hm : m < Binary64.infinityBits)
    (hn : n < Binary64.infinityBits) (h : magnitudeText m = magnitudeText n) : m = n := by
  wlog hle : m ≤ n generalizing m n
  · exact (this hn hm h.symm (by omega)).symm
  rcases Nat.eq_zero_or_pos n with rfl | hpos
  · omega
  obtain ⟨w, hw, hwn⟩ := numeral_magnitudeText hpos hn
  rcases Nat.eq_zero_or_pos m with rfl | hpos'
  · have hzero : w = 0 := by rw [← hw.readValue_eq, ← h, numeral_zero.readValue_eq]
    exact absurd hzero (pos_of_contains hpos hn hwn).ne'
  · obtain ⟨v, hv, hvm⟩ := numeral_magnitudeText hpos' hm
    have hvw : v = w := by rw [← hv.readValue_eq, h, hw.readValue_eq]
    exact eq_of_contains hpos' hm hpos hn hvm (hvw ▸ hwn)

namespace Binary64

variable {x y : Binary64}

/-- The text of a number without its sign. -/
def unsignedText (x : Binary64) : List Char :=
  if x.isFinite then magnitudeText x.magnitude else "Infinity".toList

theorem toList_text (hx : ¬ x.isNaN) : (x.text "Infinity" "NaN").toList =
    if x.isNegative then '-' :: x.unsignedText else x.unsignedText := by
  rw [text, if_neg hx, String.toList_ofList]
  rfl

theorem toList_text_of_isNaN (hx : x.isNaN) : (x.text "Infinity" "NaN").toList =
    ['N', 'a', 'N'] := by
  rw [text, if_pos hx]
  rfl

theorem unsignedText_cases (x : Binary64) :
    (x.magnitude < infinityBits ∧ x.unsignedText = magnitudeText x.magnitude) ∨
      (infinityBits ≤ x.magnitude ∧ x.unsignedText = "Infinity".toList) := by
  unfold unsignedText isFinite
  by_cases h : x.magnitude < infinityBits
  · exact .inl ⟨h, by simp [h]⟩
  · exact .inr ⟨by omega, by simp [h]⟩

/-- Without its sign a number begins with a digit or is a word. -/
theorem exists_unsignedText_eq_cons (x : Binary64) :
    ∃ c more, x.unsignedText = c :: more ∧ (c.isDigit = true ∨ c = 'I') := by
  obtain ⟨hfinite, htext⟩ | ⟨-, htext⟩ := x.unsignedText_cases
  · obtain ⟨v, hv⟩ := exists_numeral hfinite
    obtain ⟨c, more, hc, hdigit⟩ := hv.exists_eq_cons
    exact ⟨c, more, htext.trans hc, .inl hdigit⟩
  · exact ⟨'I', _, htext, .inr rfl⟩

/-- A number has its sign and its magnitude only. -/
theorem eq_of_magnitude_eq (hsign : x.isNegative = y.isNegative)
    (hmagnitude : x.magnitude = y.magnitude) : x = y := by
  have hbits : x.bits.toNat = y.bits.toNat := by
    have hx := x.bits.toNat_lt
    have hy := y.bits.toNat_lt
    simp only [isNegative, magnitude, decide_eq_decide, Nat.pow_eq] at hsign hmagnitude
    omega
  cases x
  cases y
  exact congrArg mk (UInt64.toNat_inj.mp hbits)

theorem magnitude_eq_of_unsignedText_eq (hx : ¬ x.isNaN) (hy : ¬ y.isNaN)
    (h : x.unsignedText = y.unsignedText) : x.magnitude = y.magnitude := by
  have hnan : ∀ {z : Binary64}, ¬ z.isNaN → z.magnitude ≤ infinityBits := by
    intro z hz
    simpa [isNaN] using hz
  have hword : ∀ {m : Nat}, m < infinityBits → magnitudeText m ≠ "Infinity".toList := by
    intro m hm heq
    obtain ⟨v, hv⟩ := exists_numeral hm
    obtain ⟨c, more, hc, hdigit⟩ := hv.exists_eq_cons
    rw [heq] at hc
    rw [← (List.cons.inj hc).1] at hdigit
    cases hdigit
  obtain ⟨hxfinite, hxtext⟩ | ⟨hxinfinite, hxtext⟩ := x.unsignedText_cases
  · obtain ⟨hyfinite, hytext⟩ | ⟨-, hytext⟩ := y.unsignedText_cases
    · exact eq_of_magnitudeText_eq hxfinite hyfinite (hxtext ▸ hytext ▸ h)
    · exact absurd (hxtext ▸ hytext ▸ h) (hword hxfinite)
  · obtain ⟨hyfinite, hytext⟩ | ⟨hyinfinite, -⟩ := y.unsignedText_cases
    · exact absurd (hxtext ▸ hytext ▸ h).symm (hword hyfinite)
    · exact (Nat.le_antisymm (hnan hx) hxinfinite).trans (Nat.le_antisymm (hnan hy) hyinfinite).symm

/-- **Numbers have different texts**, where one value only is no number. -/
theorem eq_of_text_eq (hx : x.isNaN → x = nan) (hy : y.isNaN → y = nan)
    (h : x.text "Infinity" "NaN" = y.text "Infinity" "NaN") : x = y := by
  have hlist := congrArg String.toList h
  obtain ⟨c, more, hc, hcases⟩ := x.exists_unsignedText_eq_cons
  obtain ⟨d, rest, hd, hdcases⟩ := y.exists_unsignedText_eq_cons
  have hne : ∀ {e : Char}, e.isDigit = true ∨ e = 'I' → e ≠ '-' ∧ e ≠ 'N' := by
    rintro e (he | rfl)
    · constructor <;> (rintro rfl; cases he)
    · decide
  -- A text that begins like the word of the value that is no number.
  have hword : ∀ {z : Binary64}, ¬ z.isNaN →
      (z.text "Infinity" "NaN").toList ≠ ['N', 'a', 'N'] := by
    intro z hz heq
    obtain ⟨e, tail, he, hcases⟩ := z.exists_unsignedText_eq_cons
    rw [toList_text hz, he] at heq
    split at heq
    · cases heq
    · exact (hne hcases).2 (List.cons.inj heq).1
  by_cases hxn : x.isNaN
  · by_cases hyn : y.isNaN
    · rw [hx hxn, hy hyn]
    · exact absurd (hlist.symm.trans (toList_text_of_isNaN hxn)) (hword hyn)
  by_cases hyn : y.isNaN
  · exact absurd (hlist.trans (toList_text_of_isNaN hyn)) (hword hxn)
  rw [toList_text hxn, toList_text hyn] at hlist
  have hsign : x.isNegative = y.isNegative := by
    rw [hc, hd] at hlist
    cases hxs : x.isNegative <;> cases hys : y.isNegative <;> simp only [hxs, hys] at hlist
    · rfl
    · exact absurd (List.cons.inj hlist).1 (hne hcases).1
    · exact absurd (List.cons.inj hlist).1.symm (hne hdcases).1
    · rfl
  have hunsigned : x.unsignedText = y.unsignedText := by
    rw [hsign] at hlist
    split at hlist
    · exact (List.cons.inj hlist).2
    · exact hlist
  exact eq_of_magnitude_eq hsign (magnitude_eq_of_unsignedText_eq hxn hyn hunsigned)

/-! ## Numbers as tokens -/

/-- The characters of the text of a number. -/
theorem mem_text_cases {c : Char} (h : c ∈ (x.text "Infinity" "NaN").toList) :
    c.isDigit = true ∨ c ∈ ".e+-InfinityNaN".toList := by
  by_cases hx : x.isNaN
  · rw [toList_text_of_isNaN hx] at h
    exact .inr (by revert h; simp; tauto)
  · have hunsigned : c ∈ x.unsignedText → c.isDigit = true ∨ c ∈ ".e+-InfinityNaN".toList := by
      intro hc
      obtain ⟨hfinite, htext⟩ | ⟨-, htext⟩ := x.unsignedText_cases
      · obtain ⟨v, hv⟩ := exists_numeral hfinite
        exact (hv.mem_cases (htext ▸ hc)).imp_right fun h ↦ by revert h; simp; tauto
      · rw [htext] at hc
        exact .inr (by revert hc; simp; tauto)
    rw [toList_text hx] at h
    split at h
    · rcases List.mem_cons.mp h with rfl | h
      · exact .inr (by simp)
      · exact hunsigned h
    · exact hunsigned h

/-- The text of a number begins with a digit, a sign or the letter of a word. -/
theorem exists_text_eq_cons (x : Binary64) :
    ∃ c more, (x.text "Infinity" "NaN").toList = c :: more ∧
      (c.isDigit = true ∨ c ∈ ['-', 'I', 'N']) := by
  by_cases hx : x.isNaN
  · exact ⟨_, _, toList_text_of_isNaN hx, .inr (by simp)⟩
  · rw [toList_text hx]
    split
    · exact ⟨_, _, rfl, .inr (by simp)⟩
    · obtain ⟨c, more, hc, hcases⟩ := x.exists_unsignedText_eq_cons
      exact ⟨c, more, hc, hcases.imp_right fun h ↦ by simp [h]⟩

/-- The text of a number is not that of an integer. -/
theorem exists_mark (x : Binary64) :
    ∃ c ∈ (x.text "Infinity" "NaN").toList, c.isDigit = false ∧ c ≠ '-' := by
  by_cases hx : x.isNaN
  · exact ⟨'N', by rw [toList_text_of_isNaN hx]; simp, by decide⟩
  · have hmark : ∃ c ∈ x.unsignedText, c.isDigit = false ∧ c ≠ '-' := by
      obtain ⟨hfinite, htext⟩ | ⟨-, htext⟩ := x.unsignedText_cases
      · obtain ⟨v, hv⟩ := exists_numeral hfinite
        rw [htext]
        rcases hv.exists_mark with h | h
        · exact ⟨'.', h, by decide⟩
        · exact ⟨'e', h, by decide⟩
      · exact ⟨'I', by rw [htext]; simp, by decide⟩
    obtain ⟨c, hc, hcases⟩ := hmark
    rw [toList_text hx]
    split
    · exact ⟨c, List.mem_cons_of_mem _ hc, hcases⟩
    · exact ⟨c, hc, hcases⟩

end Binary64

end SchemaTypes.Number
