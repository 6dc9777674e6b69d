import Mathlib.Algebra.Order.Field.Basic
import Mathlib.Data.Nat.Cast.Order.Field
import Mathlib.Tactic.FieldSimp
import Mathlib.Tactic.Linarith
import Mathlib.Tactic.NormNum
import Mathlib.Tactic.Positivity
import Mathlib.Tactic.Ring
import Mathlib.Tactic.WLOG
import SchemaTypes.Number.Shortest

/-!
# The interval of a number

Every finite number has an interval of values that are rounded to it. The shortest decimal of a
number lies in its interval (`RoundingInterval.contains_shortest`): the search for digits begins at
a grid that is no coarser than the number, and seventeen places further it is finer than the
interval is wide. And the intervals of two numbers share no value
(`RoundingInterval.eq_of_contains`): where one ends the next one begins, and the value in between
belongs to the one with the even significand.
-/

namespace SchemaTypes.Number

/-- The value of a decimal. -/
def Decimal.value (x : Decimal) : ℚ := x.digits * (10 : ℚ) ^ x.exponent

/-- A power is a quotient of powers with natural exponents, one of which is zero. -/
theorem zpow_eq_div {a : ℚ} (ha : a ≠ 0) (k : Int) : a ^ k = a ^ k.toNat / a ^ (-k).toNat := by
  rw [← zpow_natCast, ← zpow_natCast, ← zpow_sub₀ ha]
  congr 1
  omega

namespace RoundingInterval

variable {i : RoundingInterval}

/-- The unit in which a number and the ends of its interval are counted. -/
def unit (i : RoundingInterval) : ℚ := i.num / i.den

/-- A value lies in the interval. -/
def Contains (i : RoundingInterval) (v : ℚ) : Prop :=
  if i.closed then i.lower * i.unit ≤ v ∧ v ≤ i.upper * i.unit
  else i.lower * i.unit < v ∧ v < i.upper * i.unit

theorem holds_iff_contains (hden : 0 < i.den) (x : Decimal) :
    i.holds x = true ↔ i.Contains x.value := by
  have hden : (0 : ℚ) < i.den := by exact_mod_cast hden
  have hten : (0 : ℚ) < 10 ^ (-x.exponent).toNat := by positivity
  have hvalue : x.value = (x.digits * 10 ^ x.exponent.toNat : Nat) / 10 ^ (-x.exponent).toNat := by
    rw [Decimal.value, zpow_eq_div (by norm_num)]
    push_cast
    ring
  have hle : ∀ n : Nat, n * (i.num * 10 ^ (-x.exponent).toNat) ≤
      x.digits * 10 ^ x.exponent.toNat * i.den ↔ n * i.unit ≤ x.value := by
    intro n
    rw [hvalue, unit, mul_div_assoc', div_le_div_iff₀ hden hten, ← Nat.cast_le (α := ℚ)]
    push_cast
    rw [mul_assoc (n : ℚ)]
  have hge : ∀ n : Nat, x.digits * 10 ^ x.exponent.toNat * i.den ≤
      n * (i.num * 10 ^ (-x.exponent).toNat) ↔ x.value ≤ n * i.unit := by
    intro n
    rw [hvalue, unit, mul_div_assoc', div_le_div_iff₀ hten hden, ← Nat.cast_le (α := ℚ)]
    push_cast
    rw [mul_assoc (n : ℚ)]
  unfold holds Contains
  cases i.closed with
  | true => simp [hle, hge]
  | false => simp [← not_le, hle, hge]

theorem lt_ten_pow_iff (hden : 0 < i.den) (k : Int) :
    i.center * i.num * 10 ^ (-k).toNat < i.den * 10 ^ k.toNat ↔ i.center * i.unit < 10 ^ k := by
  have hden : (0 : ℚ) < i.den := by exact_mod_cast hden
  have hten : (0 : ℚ) < 10 ^ (-k).toNat := by positivity
  rw [zpow_eq_div (by norm_num), unit, mul_div_assoc', div_lt_div_iff₀ hden hten,
    ← Nat.cast_lt (α := ℚ)]
  push_cast
  rw [mul_comm (i.den : ℚ)]

/-- The search for a power of ten ends at one that is at most ten times the number. -/
theorem ten_pow_placeFrom_le (hden : 0 < i.den) (steps : Nat) {k : Int}
    (h : (10 : ℚ) ^ (k - 1) ≤ i.center * i.unit) :
    (10 : ℚ) ^ (i.placeFrom steps k - 1) ≤ i.center * i.unit := by
  induction steps generalizing k with
  | zero => exact h
  | succ steps ih =>
    rw [placeFrom]
    split
    · exact h
    · next hge =>
      refine ih ?_
      rw [add_sub_cancel_right]
      exact not_lt.mp fun hlt ↦ hge ((lt_ten_pow_iff hden k).mpr hlt)

/-- A quotient is off from one of the two whole numbers around it by a half at most, and that is the
one that is tried first. -/
theorem exists_near (hden : 0 < i.den) (exponent : Int) :
    ∃ x ∈ i.neighbours exponent, |x.value - i.center * i.unit| ≤ 10 ^ exponent / 2 := by
  unfold neighbours
  simp only [Nat.pow_eq]
  set n := i.center * i.num * 10 ^ (-exponent).toNat with hn
  set d := i.den * 10 ^ exponent.toNat with hd
  have hdpos : 0 < d := by positivity
  have hdpos' : (0 : ℚ) < d := by exact_mod_cast hdpos
  have hstep : (0 : ℚ) < 10 ^ exponent := zpow_pos (by norm_num) _
  have hnumber : i.center * i.unit = (n : ℚ) / d * 10 ^ exponent := by
    rw [hn, hd, zpow_eq_div (by norm_num), unit]
    push_cast
    field_simp
  have hdiv : (n : ℚ) = d * (n / d : Nat) + (n % d : Nat) := by
    exact_mod_cast (Nat.div_add_mod n d).symm
  -- What a whole number of steps is off by, counted in steps.
  have hoff : ∀ (t : Nat) (e : ℚ), (t : ℚ) * d - n = e → 2 * |e| ≤ d →
      |(Decimal.mk t exponent).value - i.center * i.unit| ≤ 10 ^ exponent / 2 := by
    intro t e he hsmall
    have hdiff : (Decimal.mk t exponent).value - i.center * i.unit = e / d * 10 ^ exponent := by
      rw [Decimal.value, hnumber, ← he]
      field_simp
    rw [hdiff, abs_mul, abs_div, abs_of_pos hdpos', abs_of_pos hstep, div_eq_mul_inv _ (2 : ℚ),
      mul_comm (10 ^ exponent : ℚ)]
    refine mul_le_mul_of_nonneg_right ?_ hstep.le
    rw [div_le_iff₀ hdpos']
    linarith
  have hmod : (n % d : Nat) < d := Nat.mod_lt n hdpos
  have hmod' : ((n % d : Nat) : ℚ) < d := by exact_mod_cast hmod
  split
  · next hlow =>
    refine ⟨_, List.mem_cons_self, hoff _ (-(n % d : Nat)) ?_ ?_⟩
    · rw [hdiv]
      ring
    · rw [abs_neg, abs_of_nonneg (by positivity)]
      have : 2 * (n % d) ≤ d := by omega
      exact_mod_cast this
  · next hhigh =>
    refine ⟨_, List.mem_cons_self, hoff _ (d - (n % d : Nat)) ?_ ?_⟩
    · rw [hdiv]
      push_cast
      ring
    · rw [abs_of_nonneg (by linarith)]
      have : d ≤ 2 * (n % d) := by omega
      have : (d : ℚ) ≤ 2 * (n % d : Nat) := by exact_mod_cast this
      linarith

end RoundingInterval

/-- A power of two has at least as many decimal places as its logarithm says, but for two. -/
theorem ten_pow_le_two_pow {k : Int} (hlow : -1100 < k) (hhigh : k < 1100) :
    (10 : ℚ) ^ (k * 30103 / 100000 - 2) ≤ 2 ^ k := by
  have hup : ∀ n < 1100, 10 ^ (n * 30103 / 100000) ≤ 100 * 2 ^ n := by decide +kernel
  have hdown : ∀ n < 1100, 2 ^ n ≤ 10 ^ ((n * 30103 + 99999) / 100000 + 2) := by decide +kernel
  have hten : (10 : ℚ) ≠ 0 := by norm_num
  obtain ⟨n, rfl | rfl⟩ := k.eq_nat_or_neg
  · have hexponent : (n : Int) * 30103 / 100000 = (n * 30103 / 100000 : Nat) := by omega
    have hle : (10 : ℚ) ^ (n * 30103 / 100000) ≤ 100 * 2 ^ n := by
      exact_mod_cast hup n (by omega)
    rw [hexponent, zpow_sub₀ hten, zpow_natCast, zpow_natCast, div_le_iff₀ (by norm_num)]
    norm_num
    linarith
  · have hexponent : -(n : Int) * 30103 / 100000 - 2 =
        -((n * 30103 + 99999) / 100000 + 2 : Nat) := by omega
    have hle : (2 : ℚ) ^ n ≤ 10 ^ ((n * 30103 + 99999) / 100000 + 2) := by
      exact_mod_cast hdown n (by omega)
    rw [hexponent, zpow_neg, zpow_neg, zpow_natCast, zpow_natCast]
    exact inv_anti₀ (by positivity) hle

namespace RoundingInterval

/-! ## The interval of a number -/

theorem significand_bounds {m : Nat} (hpos : 0 < m) (hfinite : m < Binary64.infinityBits) :
    0 < (Binary64.significand m).1 ∧ (Binary64.significand m).1 < 2 ^ 53 ∧
      -1074 ≤ (Binary64.significand m).2 ∧ (Binary64.significand m).2 ≤ 971 := by
  simp only [Binary64.infinityBits, Binary64.significand, Nat.pow_eq] at *
  split <;> dsimp only <;> omega

theorem den_ofMagnitude_pos (m : Nat) : 0 < (ofMagnitude m).den := Nat.pow_pos (by decide)

theorem unit_ofMagnitude (m : Nat) :
    (ofMagnitude m).unit = (2 : ℚ) ^ ((Binary64.significand m).2 - 2) := by
  have hneg : -((Binary64.significand m).2 - 2) = 2 - (Binary64.significand m).2 := by ring
  rw [zpow_eq_div (by norm_num), hneg, unit, ofMagnitude]
  simp only [Nat.pow_eq]
  push_cast
  rfl

theorem unit_ofMagnitude_pos (m : Nat) : 0 < (ofMagnitude m).unit := by
  rw [unit_ofMagnitude]
  exact zpow_pos (by norm_num) _

/-- The grid that the search for digits begins at is no coarser than the number. -/
theorem ten_pow_place_le {m : Nat} (hpos : 0 < m) (hfinite : m < Binary64.infinityBits) :
    (10 : ℚ) ^ ((ofMagnitude m).place - 1) ≤ (ofMagnitude m).center * (ofMagnitude m).unit := by
  obtain ⟨hs, hs', he, he'⟩ := significand_bounds hpos hfinite
  refine ten_pow_placeFrom_le (den_ofMagnitude_pos m) 6 ?_
  set s := (Binary64.significand m).1 with hsdef
  set e := (Binary64.significand m).2 with hedef
  have hden : (ofMagnitude m).den = 2 ^ (2 - e).toNat := rfl
  have hnum : (ofMagnitude m).center * (ofMagnitude m).num = 4 * s * 2 ^ (e - 2).toNat := rfl
  set a := 4 * s * 2 ^ (e - 2).toNat with hadef
  have ha : a ≠ 0 := by positivity
  have hlog : a.log2 < 1024 := by
    rw [Nat.log2_lt ha]
    calc a < 2 ^ 55 * 2 ^ (e - 2).toNat := by
          rw [hadef]
          exact Nat.mul_lt_mul_of_pos_right (by omega) (by positivity)
      _ = 2 ^ (55 + (e - 2).toNat) := (Nat.pow_add 2 55 _).symm
      _ ≤ 2 ^ 1024 := Nat.pow_le_pow_right (by decide) (by omega)
  have hquotient : (ofMagnitude m).center * (ofMagnitude m).unit = (a : ℚ) / 2 ^ (2 - e).toNat := by
    rw [unit, mul_div_assoc', ← Nat.cast_mul, hnum, hden]
    push_cast
    rfl
  have hexponent : (((a.log2 : Int) - (2 - e).toNat - 1) * 30103 / 100000 - 1 - 1) =
      ((a.log2 : Int) - (2 - e).toNat - 1) * 30103 / 100000 - 2 := by ring
  rw [hnum, hden, Nat.log2_two_pow, hquotient, hexponent]
  have htwo : (2 : ℚ) ≠ 0 := by norm_num
  have hself : (2 : ℚ) ^ a.log2 ≤ a := by exact_mod_cast Nat.log2_self_le ha
  calc (10 : ℚ) ^ (((a.log2 : Int) - (2 - e).toNat - 1) * 30103 / 100000 - 2)
      ≤ 2 ^ ((a.log2 : Int) - (2 - e).toNat - 1) := ten_pow_le_two_pow (by omega) (by omega)
    _ ≤ 2 ^ ((a.log2 : Int) - (2 - e).toNat) := zpow_le_zpow_right₀ (by norm_num) (by omega)
    _ = 2 ^ a.log2 / 2 ^ (2 - e).toNat := by rw [zpow_sub₀ htwo, zpow_natCast, zpow_natCast]
    _ ≤ a / 2 ^ (2 - e).toNat := div_le_div_of_nonneg_right hself (by positivity)

/-- A number is less than two times ten to the sixteen steps from either end of its interval. -/
theorem center_lt {m : Nat} (hpos : 0 < m) (hfinite : m < Binary64.infinityBits) :
    ((ofMagnitude m).center : ℚ) <
        2 * 10 ^ 16 * ((ofMagnitude m).center - (ofMagnitude m).lower) ∧
      ((ofMagnitude m).center : ℚ) <
        2 * 10 ^ 16 * ((ofMagnitude m).upper - (ofMagnitude m).center) := by
  obtain ⟨hs, hs', -, -⟩ := significand_bounds hpos hfinite
  simp only [ofMagnitude, Nat.pow_eq]
  generalize (Binary64.significand m).1 = s at *
  generalize (Binary64.significand m).2 = e at *
  have hbound : (s : ℚ) < 2 ^ 53 := by exact_mod_cast hs'
  split
  · next hpower =>
    rw [hpower.1]
    norm_num
  · rw [Nat.cast_sub (by omega)]
    push_cast
    constructor <;> linarith

/-- **Seventeen digits suffice**: the shortest decimal of a number lies in its interval. -/
theorem contains_shortest {m : Nat} (hpos : 0 < m) (hfinite : m < Binary64.infinityBits) :
    (ofMagnitude m).Contains (ofMagnitude m).shortest.value := by
  have hden := den_ofMagnitude_pos m
  obtain ⟨hs, hs', -, -⟩ := significand_bounds hpos hfinite
  have hunit := unit_ofMagnitude_pos m
  have hplace := ten_pow_place_le hpos hfinite
  set i := ofMagnitude m with hi
  obtain ⟨x, hx, hnear⟩ := exists_near hden (i.place - 17)
  -- Seventeen places are finer than the interval is wide.
  have hfine : (10 : ℚ) ^ (i.place - 17) / 2 < (i.center - i.lower) * i.unit ∧
      (10 : ℚ) ^ (i.place - 17) / 2 < (i.upper - i.center) * i.unit := by
    have hgrid : (10 : ℚ) ^ (i.place - 17) ≤ i.center * i.unit / 10 ^ 16 := by
      have hsplit : i.place - 17 = i.place - 1 - (16 : Nat) := by push_cast; ring
      rw [hsplit, zpow_sub₀ (by norm_num), zpow_natCast]
      exact div_le_div_of_nonneg_right hplace (by positivity)
    obtain ⟨hlower, hupper⟩ := center_lt hpos hfinite
    have hlower := mul_lt_mul_of_pos_right hlower hunit
    have hupper := mul_lt_mul_of_pos_right hupper hunit
    constructor <;> linarith
  have hholds : i.holds x = true := by
    obtain ⟨hleft, hright⟩ := abs_le.mp hnear
    rw [holds_iff_contains hden, Contains]
    split
    · constructor <;> linarith
    · constructor <;> linarith
  have hsome : ((List.range 17).findSome? fun (count : Nat) ↦
      (i.neighbours (i.place - (count + 1))).find? i.holds).isSome = true := by
    rw [List.findSome?_isSome_iff]
    refine ⟨16, by decide, ?_⟩
    rw [List.find?_isSome]
    exact ⟨x, hx, hholds⟩
  obtain ⟨y, hy⟩ := Option.isSome_iff_exists.mp hsome
  obtain ⟨count, -, hfound⟩ := List.exists_of_findSome?_eq_some hy
  rw [shortest, hy, Option.getD_some, ← holds_iff_contains hden]
  exact List.find?_some hfound

/-! ## Neighbouring numbers -/

/-- The next number has the next significand, or the least one of the next power of two. -/
theorem significand_succ {m : Nat} :
    ((Binary64.significand (m + 1)).1 = (Binary64.significand m).1 + 1 ∧
        (Binary64.significand (m + 1)).2 = (Binary64.significand m).2 ∧
        ¬ ((Binary64.significand (m + 1)).1 = 2 ^ 52 ∧ -1074 < (Binary64.significand (m + 1)).2)) ∨
      ((Binary64.significand m).1 = 2 ^ 53 - 1 ∧ (Binary64.significand (m + 1)).1 = 2 ^ 52 ∧
        (Binary64.significand (m + 1)).2 = (Binary64.significand m).2 + 1 ∧
        -1074 < (Binary64.significand (m + 1)).2) := by
  simp only [Binary64.significand, Nat.pow_eq]
  split <;> split <;> dsimp only <;> omega

/-- The least and the greatest value that belong to a number. -/
def least (m : Nat) : ℚ := (ofMagnitude m).lower * (ofMagnitude m).unit

@[inherit_doc least]
def greatest (m : Nat) : ℚ := (ofMagnitude m).upper * (ofMagnitude m).unit

/-- Where the values of one number end, those of the next one begin, and only one of the two takes
the value between them. -/
theorem greatest_eq_least_succ (m : Nat) :
    greatest m = least (m + 1) ∧ (ofMagnitude (m + 1)).closed = !(ofMagnitude m).closed := by
  have hsucc := significand_succ (m := m)
  rw [greatest, least, unit_ofMagnitude, unit_ofMagnitude]
  simp only [ofMagnitude, Nat.pow_eq]
  generalize (Binary64.significand m).1 = s at *
  generalize (Binary64.significand m).2 = e at *
  generalize (Binary64.significand (m + 1)).1 = s' at *
  generalize (Binary64.significand (m + 1)).2 = e' at *
  obtain ⟨rfl, rfl, hpower⟩ | ⟨rfl, rfl, rfl, hpower⟩ := hsucc
  · rw [if_neg hpower, Nat.cast_sub (by omega)]
    refine ⟨?_, ?_⟩
    · push_cast
      ring
    · rw [← decide_not]
      exact decide_eq_decide.mpr (by omega)
  · rw [if_pos ⟨rfl, hpower⟩]
    refine ⟨?_, by decide⟩
    have hstep : e + 1 - 2 = e - 2 + 1 := by ring
    rw [hstep, zpow_add₀ (by norm_num)]
    norm_num
    ring

theorem least_lt_greatest {m : Nat} (hpos : 0 < m) (hfinite : m < Binary64.infinityBits) :
    least m < greatest m := by
  have hunit := unit_ofMagnitude_pos m
  obtain ⟨hlower, hupper⟩ := center_lt hpos hfinite
  have hcenter : (0 : ℚ) ≤ (ofMagnitude m).center := Nat.cast_nonneg _
  exact mul_lt_mul_of_pos_right (by linarith) hunit

/-- Nothing below the least value belongs to a number, and that value only if the ends do. -/
theorem least_le_of_contains {m : Nat} {v : ℚ} (h : (ofMagnitude m).Contains v) :
    least m ≤ v ∧ (v = least m → (ofMagnitude m).closed = true) := by
  unfold Contains at h
  split at h
  · exact ⟨h.1, fun _ ↦ ‹_›⟩
  · exact ⟨h.1.le, fun heq ↦ absurd heq.symm h.1.ne⟩

@[inherit_doc least_le_of_contains]
theorem le_greatest_of_contains {m : Nat} {v : ℚ} (h : (ofMagnitude m).Contains v) :
    v ≤ greatest m ∧ (v = greatest m → (ofMagnitude m).closed = true) := by
  unfold Contains at h
  split at h
  · exact ⟨h.2, fun _ ↦ ‹_›⟩
  · exact ⟨h.2.le, fun heq ↦ absurd heq h.2.ne⟩

/-- Only positive values belong to a positive number. -/
theorem pos_of_contains {m : Nat} {v : ℚ} (hpos : 0 < m) (hfinite : m < Binary64.infinityBits)
    (h : (ofMagnitude m).Contains v) : 0 < v := by
  have hlower : 0 < (ofMagnitude m).lower := by
    obtain ⟨hs, -⟩ := significand_bounds hpos hfinite
    simp only [ofMagnitude]
    split <;> omega
  have hleast : 0 < least m := mul_pos (by exact_mod_cast hlower) (unit_ofMagnitude_pos m)
  exact hleast.trans_le (least_le_of_contains h).1

/-- Greater numbers have greater values. -/
theorem least_lt_least {m n : Nat} (hpos : 0 < m) (hlt : m < n)
    (hfinite : n < Binary64.infinityBits) : least m < least n := by
  induction n, hlt using Nat.le_induction with
  | base =>
    rw [← (greatest_eq_least_succ m).1]
    exact least_lt_greatest hpos (by omega)
  | succ n hle ih =>
    refine (ih (by omega)).trans ?_
    rw [← (greatest_eq_least_succ n).1]
    exact least_lt_greatest (by omega) (by omega)

/-- **A value belongs to one number only.** -/
theorem eq_of_contains {m n : Nat} {v : ℚ} (hm : 0 < m) (hm' : m < Binary64.infinityBits)
    (hn : 0 < n) (hn' : n < Binary64.infinityBits) (hmv : (ofMagnitude m).Contains v)
    (hnv : (ofMagnitude n).Contains v) : m = n := by
  wlog hlt : m < n generalizing m n
  · rcases Nat.lt_trichotomy m n with h | h | h
    · exact absurd h hlt
    · exact h
    · exact (this hn hn' hm hm' hnv hmv h).symm
  obtain ⟨hends, hclosed⟩ := greatest_eq_least_succ m
  have hgreatest := le_greatest_of_contains hmv
  have hleast := least_le_of_contains hnv
  rcases Nat.lt_or_eq_of_le hlt with hfar | rfl
  · have := least_lt_least (Nat.succ_pos m) hfar hn'
    linarith [hgreatest.1, hleast.1]
  · have hv : v = greatest m := le_antisymm hgreatest.1 (hends ▸ hleast.1)
    have hopen := hgreatest.2 hv
    have hopen' := hleast.2 (hv.trans hends)
    rw [hclosed, hopen] at hopen'
    cases hopen'

end RoundingInterval

end SchemaTypes.Number
