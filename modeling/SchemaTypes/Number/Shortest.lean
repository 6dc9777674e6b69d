import SchemaTypes.Number.Binary64

/-!
# Shortest decimal text of a floating point number

A finite number is written with the fewest digits that read back as the same number; of two such
decimals the nearer one, and of two equally near ones the even one. Exponents from -4 to 15 are
written positionally, and every number shows a point or an exponent.
-/

namespace SchemaTypes.Number

/-- The decimal `digits * 10 ^ exponent`. -/
structure Decimal where
  digits : Nat
  exponent : Int
deriving DecidableEq, Repr

/-- A positive number `center * (num / den)` with the ends of the interval that rounds to it, in the
same unit; the ends belong to the interval when `closed`. -/
structure RoundingInterval where
  num : Nat
  den : Nat
  center : Nat
  lower : Nat
  upper : Nat
  closed : Bool

namespace RoundingInterval

/-- The interval of a positive finite magnitude, in quarters of the unit of its significand. Below a
power of two the neighbours are twice as dense. -/
def ofMagnitude (magnitude : Nat) : RoundingInterval :=
  let (m, e) := Binary64.significand magnitude
  let gap := if m = Nat.pow 2 52 ∧ -1074 < e then 1 else 2
  { num := Nat.pow 2 (e - 2).toNat
    den := Nat.pow 2 (2 - e).toNat
    center := 4 * m
    lower := 4 * m - gap
    upper := 4 * m + 2
    closed := m % 2 = 0 }

/-- Whether a decimal rounds to the number. -/
def holds (i : RoundingInterval) (x : Decimal) : Bool :=
  let value := x.digits * Nat.pow 10 x.exponent.toNat * i.den
  let unit := i.num * Nat.pow 10 (-x.exponent).toNat
  if i.closed then i.lower * unit ≤ value && value ≤ i.upper * unit
  else i.lower * unit < value && value < i.upper * unit

/-- The two decimals around the number on the grid of multiples of `10 ^ exponent`, the nearer one
first. -/
def neighbours (i : RoundingInterval) (exponent : Int) : List Decimal :=
  let n := i.center * i.num * Nat.pow 10 (-exponent).toNat
  let d := i.den * Nat.pow 10 exponent.toNat
  let below := n / d
  let rest := 2 * (n % d)
  if rest < d ∨ rest = d ∧ below % 2 = 0 then [⟨below, exponent⟩, ⟨below + 1, exponent⟩]
  else [⟨below + 1, exponent⟩, ⟨below, exponent⟩]

/-- The least power of ten above the number, searched upward from a power that is not above it. -/
def placeFrom (i : RoundingInterval) : Nat → Int → Int
  | 0, k => k
  | steps + 1, k =>
    if i.center * i.num * Nat.pow 10 (-k).toNat < i.den * Nat.pow 10 k.toNat then k
    else i.placeFrom steps (k + 1)

/-- The least power of ten above the number; the binary logarithm gives it up to a few steps. -/
def place (i : RoundingInterval) : Int :=
  let log2 : Int := (i.center * i.num).log2 - i.den.log2
  i.placeFrom 6 ((log2 - 1) * 30103 / 100000 - 1)

/-- The decimal of the number with the fewest digits. -/
def shortest (i : RoundingInterval) : Decimal :=
  -- Seventeen digits always suffice, so the value behind `getD` is never used.
  let place := i.place
  let onGrid (count : Nat) : Option Decimal := (i.neighbours (place - (count + 1))).find? i.holds
  ((List.range 17).findSome? onGrid).getD ⟨i.center * i.num / i.den, 0⟩

end RoundingInterval

/-- Digits of a number, most significant first. -/
def decimalDigits (n : Nat) : List Char := (toString n).toList

/-- Digits without the zeros at their end. -/
def trimZeros (cs : List Char) : List Char := (cs.reverse.dropWhile (· == '0')).reverse

/-- The written form of the digits of a decimal with `point` digits in front of the point. -/
def layout (digits : List Char) (point : Int) : List Char :=
  if -4 < point ∧ point ≤ 16 then
    if point ≤ 0 then '0' :: '.' :: (List.replicate (-point).toNat '0' ++ digits)
    else
      let whole := digits.take point.toNat
      let fraction := digits.drop point.toNat
      whole ++ List.replicate (point.toNat - whole.length) '0' ++ '.' ::
        (if fraction.isEmpty then ['0'] else fraction)
  else
    let power := point - 1
    let exponent := decimalDigits power.natAbs
    digits.take 1 ++ (if digits.length ≤ 1 then [] else '.' :: digits.drop 1) ++
      'e' :: (if power < 0 then '-' else '+') ::
        (List.replicate (2 - exponent.length) '0' ++ exponent)

/-- Text of a positive finite magnitude, or of zero. -/
def magnitudeText (magnitude : Nat) : List Char :=
  if magnitude = 0 then ['0', '.', '0']
  else
    let x := (RoundingInterval.ofMagnitude magnitude).shortest
    let digits := decimalDigits x.digits
    layout (trimZeros digits) (digits.length + x.exponent)

/-- Text of a number; infinity and the value that is no number have words of their own. -/
def Binary64.text (infinity notNumber : String) (x : Binary64) : String :=
  if x.isNaN then notNumber
  else
    let body := if x.isFinite then magnitudeText x.magnitude else infinity.toList
    String.ofList (if x.isNegative then '-' :: body else body)

end SchemaTypes.Number
