import SchemaTypes.Json.Basic

/-!
# Reading JSON text

A recursive descent reader over the characters of a text. Besides the standard grammar it takes the
words `NaN`, `Infinity` and `-Infinity` as numbers; control characters inside a string are refused.
The fuel of the descent is twice the length of the text, of which every step consumes a character.
-/

namespace SchemaTypes.Json

/-- Why a text is no JSON value. -/
inductive ParseError where
  /-- The text does not follow the grammar. -/
  | malformed
  /-- An integer has more digits than are read. -/
  | integerTooLong
deriving DecidableEq, Repr

namespace Parser

/-- The longest integer that is read has this many digits. -/
def integerLimit : Nat := 4300

/-- Skips the blanks that may stand between tokens. -/
def skipBlanks (cs : List Char) : List Char :=
  cs.dropWhile fun c ↦ c == ' ' || c == '\t' || c == '\n' || c == '\r'

/-- Value of a hexadecimal digit in either case. -/
def hexValue (c : Char) : Option Nat :=
  if '0' ≤ c ∧ c ≤ '9' then some (c.toNat - '0'.toNat)
  else if 'a' ≤ c ∧ c ≤ 'f' then some (c.toNat - 'a'.toNat + 10)
  else if 'A' ≤ c ∧ c ≤ 'F' then some (c.toNat - 'A'.toNat + 10)
  else none

/-- The unit denoted by four hexadecimal digits. -/
def hexUnit (a b c d : Char) : Option Nat := do
  return ((← hexValue a) * 16 + (← hexValue b)) * 256 + (← hexValue c) * 16 + (← hexValue d)

/-- The code point of a one-letter escape. -/
def escaped : Char → Option Nat
  | '"' => some 0x22
  | '\\' => some 0x5C
  | '/' => some 0x2F
  | 'b' => some 0x08
  | 'f' => some 0x0C
  | 'n' => some 0x0A
  | 'r' => some 0x0D
  | 't' => some 0x09
  | _ => none

/-- The units of a string up to its closing quote, and the text behind it. -/
def stringUnits : List Char → Option (List Nat × List Char)
  | [] => none
  | '"' :: rest => some ([], rest)
  | '\\' :: 'u' :: a :: b :: c :: d :: rest => do
    let unit ← hexUnit a b c d
    let (units, rest) ← stringUnits rest
    return (unit :: units, rest)
  | '\\' :: e :: rest => do
    let unit ← escaped e
    let (units, rest) ← stringUnits rest
    return (unit :: units, rest)
  | c :: rest =>
    if c == '\\' || c.toNat < 0x20 then none
    else do
      let (units, rest) ← stringUnits rest
      return (c.toNat :: units, rest)

/-- Characters of a sequence of units, where a high and a low surrogate make up one character. A
surrogate without its partner becomes the replacement character. -/
def pairUnits : List Nat → List Char
  | [] => []
  | [u] => [if 0xD800 ≤ u ∧ u ≤ 0xDFFF then '\uFFFD' else Char.ofNat u]
  | u :: v :: rest =>
    if 0xD800 ≤ u ∧ u ≤ 0xDBFF ∧ 0xDC00 ≤ v ∧ v ≤ 0xDFFF then
      Char.ofNat (0x10000 + (u - 0xD800) * 0x400 + (v - 0xDC00)) :: pairUnits rest
    else (if 0xD800 ≤ u ∧ u ≤ 0xDFFF then '\uFFFD' else Char.ofNat u) :: pairUnits (v :: rest)

/-- A string behind its opening quote. -/
def string (cs : List Char) : Option (String × List Char) :=
  (stringUnits cs).map fun (units, rest) ↦ (String.ofList (pairUnits units), rest)

/-- Splits off the leading decimal digits. -/
def digits (cs : List Char) : List Char × List Char :=
  (cs.takeWhile Char.isDigit, cs.dropWhile Char.isDigit)

/-- Value of a row of decimal digits. -/
def digitsValue (cs : List Char) : Nat :=
  cs.foldl (fun n c ↦ 10 * n + (c.toNat - '0'.toNat)) 0

/-- The fraction of a number: digits behind a point, if there are any. -/
def fraction : List Char → List Char × List Char
  | '.' :: rest =>
    match digits rest with
    | ([], _) => ([], '.' :: rest)
    | split => split
  | cs => ([], cs)

/-- The exponent of a number, if there is one. -/
def exponent (cs : List Char) : Option Int × List Char :=
  match cs with
  | e :: rest =>
    if e == 'e' || e == 'E' then
      let (sign, rest) := match rest with
        | '+' :: more => ((1 : Int), more)
        | '-' :: more => (-1, more)
        | _ => (1, rest)
      match digits rest with
      | ([], _) => (none, cs)
      | (ds, rest) => (some (sign * digitsValue ds), rest)
    else (none, cs)
  | [] => (none, cs)

/-- A number whose sign has been read. -/
def number (negative : Bool) (cs : List Char) : Except ParseError (Json × List Char) :=
  let whole? : Option (List Char × List Char) := match cs with
    | '0' :: rest => some (['0'], rest)
    | c :: _ => if c.isDigit then some (digits cs) else none
    | [] => none
  match whole? with
  | none => .error .malformed
  | some (whole, rest) =>
    let (part, rest) := fraction rest
    let (power, rest) := exponent rest
    if part.isEmpty && power.isNone then
      if integerLimit < whole.length then .error .integerTooLong
      else
        let n : Int := digitsValue whole
        .ok (.int (if negative then -n else n), rest)
    else
      let value := Number.Binary64.ofDecimal negative (digitsValue (whole ++ part))
        (power.getD 0 - part.length)
      .ok (.real value, rest)

mutual

/-- A value, and the text behind it. -/
def value : Nat → List Char → Except ParseError (Json × List Char)
  | 0, _ => .error .malformed
  | fuel + 1, cs =>
    match skipBlanks cs with
    | '"' :: rest =>
      match string rest with
      | some (s, rest) => .ok (.text s, rest)
      | none => .error .malformed
    | '{' :: rest =>
      match skipBlanks rest with
      | '}' :: rest => .ok (.object [], rest)
      | rest => objectMembers fuel [] rest
    | '[' :: rest =>
      match skipBlanks rest with
      | ']' :: rest => .ok (.list [], rest)
      | rest => listItems fuel [] rest
    | 'n' :: 'u' :: 'l' :: 'l' :: rest => .ok (.null, rest)
    | 't' :: 'r' :: 'u' :: 'e' :: rest => .ok (.bool true, rest)
    | 'f' :: 'a' :: 'l' :: 's' :: 'e' :: rest => .ok (.bool false, rest)
    | 'N' :: 'a' :: 'N' :: rest => .ok (.real .nan, rest)
    | 'I' :: 'n' :: 'f' :: 'i' :: 'n' :: 'i' :: 't' :: 'y' :: rest =>
      .ok (.real (.ofMagnitude false Number.Binary64.infinityBits), rest)
    | '-' :: 'I' :: 'n' :: 'f' :: 'i' :: 'n' :: 'i' :: 't' :: 'y' :: rest =>
      .ok (.real (.ofMagnitude true Number.Binary64.infinityBits), rest)
    | '-' :: rest => number true rest
    | cs => number false cs

/-- The items of a list that holds at least one more; those before it come last one first. -/
def listItems : Nat → List Json → List Char → Except ParseError (Json × List Char)
  | 0, _, _ => .error .malformed
  | fuel + 1, before, cs => do
    let (item, rest) ← value fuel cs
    match skipBlanks rest with
    | ',' :: rest => listItems fuel (item :: before) rest
    | ']' :: rest => return (.list (item :: before).reverse, rest)
    | _ => throw .malformed

/-- The members of an object that holds at least one more; those before it come last one first. -/
def objectMembers : Nat → List (String × Json) → List Char → Except ParseError (Json × List Char)
  | 0, _, _ => .error .malformed
  | fuel + 1, before, cs =>
    match skipBlanks cs with
    | '"' :: rest =>
      match string rest with
      | none => .error .malformed
      | some (key, rest) =>
        match skipBlanks rest with
        | ':' :: rest => do
          let (item, rest) ← value fuel rest
          match skipBlanks rest with
          | ',' :: rest => objectMembers fuel ((key, item) :: before) rest
          | '}' :: rest => return (.ofMembers ((key, item) :: before).reverse, rest)
          | _ => throw .malformed
        | _ => .error .malformed
    | _ => .error .malformed

end

end Parser

/-- The value a text stands for; nothing but blanks may follow it. -/
def parse (s : String) : Except ParseError Json := do
  let cs := s.toList
  let (json, rest) ← Parser.value (2 * cs.length + 2) cs
  if (Parser.skipBlanks rest).isEmpty then return json else throw .malformed

end SchemaTypes.Json
