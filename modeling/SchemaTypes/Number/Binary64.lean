/-!
# Binary floating point numbers

A 64-bit binary floating point number is its bit pattern. Rounding goes through exact integers: the
bit patterns of the non-negative numbers, read as integers, count those numbers in order, so the
pattern of a rounded value is one sum and a carry needs no case of its own.

Arithmetic on scores is exact arithmetic followed by `roundRat`.
-/

namespace SchemaTypes.Number

/-- The quotient rounded to the nearest integer, a half going to the even neighbour. -/
def divNearestEven (num den : Nat) : Nat :=
  let whole := num / den
  let rest := num % den
  if 2 * rest < den then whole
  else if den < 2 * rest then whole + 1
  else whole + whole % 2

/-- `num / den` as a fraction over `2 ^ exponent`. -/
def scaleDown (num den : Nat) (exponent : Int) : Nat × Nat :=
  if exponent < 0 then (num * Nat.pow 2 (-exponent).toNat, den)
  else (num, den * Nat.pow 2 exponent.toNat)

/-- A 64-bit binary floating point number. -/
structure Binary64 where
  /-- Sign, eleven bits of exponent and fifty-two of fraction. -/
  bits : UInt64
deriving DecidableEq, Inhabited

namespace Binary64

/-- Bit pattern of positive infinity. -/
def infinityBits : Nat := 0x7ff * Nat.pow 2 52

/-- Bit pattern of the number nearest to a quotient, a tie going to the even pattern. -/
def nearestBits (num den : Nat) : Nat :=
  if num = 0 then 0
  else
    -- With this exponent the integer part has 53 or 54 bits; below the normal range the least
    -- exponent is kept and the integer part has fewer.
    let guess : Int := (num.log2 : Int) - den.log2 - 53
    let (n, d) := scaleDown num den guess
    let exponent := max (-1074) (if n / d < Nat.pow 2 53 then guess else guess + 1)
    let (n, d) := scaleDown num den exponent
    min infinityBits ((exponent + 1074).toNat * Nat.pow 2 52 + divNearestEven n d)

/-- The number with the given sign and bit pattern of its magnitude. -/
def ofMagnitude (negative : Bool) (magnitude : Nat) : Binary64 :=
  ⟨UInt64.ofNat (if negative then Nat.pow 2 63 + magnitude else magnitude)⟩

/-- The number nearest to a signed quotient. -/
def ofQuotient (negative : Bool) (num den : Nat) : Binary64 :=
  ofMagnitude negative (nearestBits num den)

/-- The number nearest to `digits * 10 ^ exponent`. Far outside the range the power is not built. -/
def ofDecimal (negative : Bool) (digits : Nat) (exponent : Int) : Binary64 :=
  if digits = 0 ∨ exponent + digits.log2 < -340 then ofMagnitude negative 0
  else if 310 < exponent then ofMagnitude negative infinityBits
  else ofQuotient negative (digits * Nat.pow 10 exponent.toNat) (Nat.pow 10 (-exponent).toNat)

def isNegative (x : Binary64) : Bool := Nat.pow 2 63 ≤ x.bits.toNat

/-- The bit pattern without its sign. -/
def magnitude (x : Binary64) : Nat := x.bits.toNat % Nat.pow 2 63

def isFinite (x : Binary64) : Bool := x.magnitude < infinityBits

def isNaN (x : Binary64) : Bool := infinityBits < x.magnitude

def isZero (x : Binary64) : Bool := x.magnitude = 0

/-- The pattern of a quiet number that is none. -/
def nan : Binary64 := ofMagnitude false (infinityBits + Nat.pow 2 51)

/-- Integer significand and power of two of a finite magnitude. -/
def significand (magnitude : Nat) : Nat × Int :=
  let scale : Nat := magnitude / Nat.pow 2 52
  let fraction : Nat := magnitude % Nat.pow 2 52
  if scale = 0 then (fraction, -1074) else (fraction + Nat.pow 2 52, (scale : Int) - 1075)

/-- Value of a finite number. -/
def toRat (x : Binary64) : Rat :=
  let (m, e) := significand x.magnitude
  let value := mkRat (m * Nat.pow 2 e.toNat : Nat) (Nat.pow 2 (-e).toNat)
  if x.isNegative then -value else value

/-- The number nearest to a rational. -/
def ofRat (q : Rat) : Binary64 := ofQuotient (q.num < 0) q.num.natAbs q.den

end Binary64

/-- The value that a rational takes when it is stored in 64 bits. -/
def roundRat (q : Rat) : Rat := (Binary64.ofRat q).toRat

end SchemaTypes.Number
