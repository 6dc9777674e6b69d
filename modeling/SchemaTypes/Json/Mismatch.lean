import SchemaTypes.Json.Basic
import SchemaTypes.Text.Affix

/-!
# Values of an unexpected type

A document is read without a full check of its types: a text that nobody looks at may as well be a
number. The value shows its type only where it is used, and this module says what can go wrong there
and in which words it is reported.
-/

namespace SchemaTypes

namespace Json

/-- The types a JSON value can have. -/
inductive Kind where
  | null | bool | int | real | text | list | object
deriving DecidableEq, Repr

/-- The word for a type in messages. -/
def Kind.word : Kind → String
  | null => "NoneType"
  | bool => "bool"
  | int => "int"
  | real => "float"
  | text => "str"
  | list => "list"
  | object => "dict"

/-- The type of a value. -/
def kind : Json → Kind
  | .null => .null
  | .bool _ => .bool
  | .int _ => .int
  | .real _ => .real
  | .text _ => .text
  | .list _ => .list
  | .object _ => .object

end Json

/-- A use that a value of its type does not allow. -/
inductive Mismatch where
  /-- An operation was asked of a value whose type lacks it. -/
  | lacks (kind : Json.Kind) (operation : String)
  /-- Something was sought in a value that holds nothing. -/
  | notSearchable (kind : Json.Kind)
  /-- The elements were asked of a value that has none. -/
  | notIterable (kind : Json.Kind)
  /-- A value was written where only text can be. -/
  | notText (kind : Json.Kind)
  /-- A list or an object was used as a key. -/
  | notKey (kind : Json.Kind)
  /-- A value that is no text stood among texts to be joined. -/
  | notJoinable (index : Nat) (kind : Json.Kind)
  /-- Two values without a common order were compared. -/
  | notComparable (relation : String) (left right : Json.Kind)
  /-- A value was used as an operation. -/
  | notCallable (kind : Json.Kind)
  /-- A value was assigned to a name that cannot hold it. -/
  | notAssignable (name : String)
  /-- A setting without a value was asked for. -/
  | unset (key : String)
deriving DecidableEq, Repr

/-- The words in which a mismatch is reported. -/
def Mismatch.message : Mismatch → String
  | lacks kind operation => "'" ++ kind.word ++ "' object has no attribute '" ++ operation ++ "'"
  | notSearchable kind => "argument of type '" ++ kind.word ++ "' is not iterable"
  | notIterable kind => "'" ++ kind.word ++ "' object is not iterable"
  | notText kind => "string argument expected, got '" ++ kind.word ++ "'"
  | notKey kind => "unhashable type: '" ++ kind.word ++ "'"
  | notJoinable index kind =>
    "sequence item " ++ toString index ++ ": expected str instance, " ++ kind.word ++ " found"
  | notComparable relation left right =>
    "'" ++ relation ++ "' not supported between instances of '" ++ left.word ++ "' and '" ++
      right.word ++ "'"
  | notCallable kind => "'" ++ kind.word ++ "' object is not callable"
  | notAssignable name => "cannot assign to '" ++ name ++ "'"
  | unset key => "'CodeGeneratorConfig' object has no attribute '" ++ key ++ "'"

namespace Json

/-- The members of an object; every other value lacks `operation`. -/
def members (operation : String) : Json → Except Mismatch (List (String × Json))
  | object members => .ok members
  | value => .error (.lacks value.kind operation)

/-- The text of a text; every other value lacks `operation`. -/
def textOr (operation : String) : Json → Except Mismatch String
  | text s => .ok s
  | value => .error (.lacks value.kind operation)

/-- The elements of a value: items of a list, keys of an object, characters of a text. -/
def elements : Json → Except Mismatch (List Json)
  | list items => .ok items
  | object members => .ok (members.map fun (key, _) ↦ text key)
  | text s => .ok (s.toList.map fun c ↦ text (String.singleton c))
  | value => .error (.notIterable value.kind)

/-- Whether a text is found in a value: within a text, among the items of a list or among the keys
of an object. -/
def holds (sought : String) : Json → Except Mismatch Bool
  | text s => .ok (Text.isWithin sought.toList s.toList)
  | list items => .ok (items.any fun
    | text s => s == sought
    | _ => false)
  | object members => .ok (members.any fun (key, _) ↦ key == sought)
  | value => .error (.notSearchable value.kind)

/-- The texts of values that are to be joined, the first of them having the number `index`. -/
def joinable (index : Nat) : List Json → Except Mismatch (List String)
  | [] => .ok []
  | text s :: rest => (s :: ·) <$> joinable (index + 1) rest
  | value :: _ => .error (.notJoinable index value.kind)

/-- A value that may serve as a key: anything but a list or an object. -/
inductive Key where
  | null
  | bool (value : Bool)
  | int (value : Int)
  | real (value : Number.Binary64)
  | text (value : String)
deriving DecidableEq

/-- A key as a value. -/
def Key.toJson : Key → Json
  | null => .null
  | bool b => .bool b
  | int n => .int n
  | real x => .real x
  | text s => .text s

/-- The text of a key that is one. -/
def Key.text? : Key → Option String
  | text s => some s
  | _ => none

/-- A value as a key. -/
def asKey : Json → Except Mismatch Key
  | .null => .ok .null
  | .bool b => .ok (.bool b)
  | .int n => .ok (.int n)
  | .real x => .ok (.real x)
  | .text s => .ok (.text s)
  | .list _ => .error (.notKey .list)
  | .object _ => .error (.notKey .object)

/-- What serves as a key is that key. -/
@[simp] theorem asKey_toJson (key : Key) : asKey key.toJson = .ok key := by
  cases key <;> rfl

/-! ## Comparison with counts -/

/-- Whether a count is below a value, which has to be a number. -/
def exceeds (count : Nat) : Json → Except Mismatch Bool
  | .bool b => .ok (count < b.toNat)
  | .int n => .ok ((count : Int) < n)
  | .real x => .ok (!x.isNaN && if x.isFinite then (count : Rat) < x.toRat else !x.isNegative)
  | value => .error (.notComparable "<" .int value.kind)

/-- Whether a value is a number; truth values count as numbers. -/
def isNumber : Json → Bool
  | .bool _ | .int _ | .real _ => true
  | _ => false

/-- A count can be compared with every number. -/
theorem exceeds_eq_ok {limit : Json} (h : limit.isNumber = true) (count : Nat) :
    ∃ b, limit.exceeds count = .ok b := by
  cases limit <;> simp_all [exceeds, isNumber]

end Json

end SchemaTypes
