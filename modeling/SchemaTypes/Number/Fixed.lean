import SchemaTypes.Number.Binary64

/-!
# Numbers with two decimal places

A non-negative number is rounded to hundredths, a half going to the even neighbour.
-/

namespace SchemaTypes.Number

/-- Text of a non-negative number with two digits behind the point. -/
def hundredths (q : Rat) : String :=
  let n := divNearestEven (q.num.natAbs * 100) q.den
  let rest := toString (n % 100)
  toString (n / 100) ++ "." ++ (if n % 100 < 10 then "0" ++ rest else rest)

end SchemaTypes.Number
