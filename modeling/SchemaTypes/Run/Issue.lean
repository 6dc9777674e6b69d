import SchemaTypes.Json.Literal
import SchemaTypes.Schema.PrimaryType

/-!
# Issues of a run

What is wrong with a part of a document does not stop a run: it is recorded as an issue, with the
path of the part, and a placeholder stands where its type would be. An issue is kept as its cause;
the wording is in one place.
-/

namespace SchemaTypes

/-- The classes that issues fall into. -/
inductive Issue.Kind where
  | general | invalidTypes | missingItems | unsupported | unknownReference | nameCollision
deriving DecidableEq, Repr

/-- What is wrong. -/
inductive Issue.Cause where
  /-- A reference names nothing that is known. -/
  | unknownReference (ref : Json)
  /-- The declared types have no primary type. -/
  | invalidTypes (types : InvalidTypes)
  /-- A list has no schema for its items. -/
  | missingItems
  /-- A schema says what must not hold. -/
  | negation
  /-- A branch of a set of constants has no value. -/
  | branchWithoutConst (index : Nat)
  /-- A name was declared with two different texts. -/
  | duplicateName (name : String)
  /-- Two schemas have one identifier. -/
  | sameIdentifier (first second identifier : String)
  /-- A declaration hoisted out of a schema has the name of a schema. -/
  | shadowsSchema (name : String)
  /-- A schema could not be emitted to its end. -/
  | taskFailed (reason : String)
  /-- An issue that was reported in words. -/
  | stated (kind : Issue.Kind) (message : String)

namespace Issue.Cause

/-- The class of a cause. -/
def kind : Issue.Cause → Issue.Kind
  | unknownReference _ => .unknownReference
  | invalidTypes _ => .invalidTypes
  | missingItems => .missingItems
  | negation => .unsupported
  | branchWithoutConst _ => .unsupported
  | duplicateName _ => .nameCollision
  | sameIdentifier .. => .nameCollision
  | shadowsSchema _ => .nameCollision
  | taskFailed _ => .general
  | stated kind _ => kind

/-- The words in which a cause is reported. -/
def message : Issue.Cause → String
  | unknownReference ref => "unknown reference " ++ ref.literal
  | invalidTypes types => types.message
  | missingItems => "schema has array type but no items"
  | negation => "not is not supported"
  | branchWithoutConst index => "oneOf branch " ++ toString index ++ " has no const value"
  | duplicateName name => "duplicate name generated in the global scope: " ++ name
  | sameIdentifier first second identifier =>
    "schemas " ++ Text.quoted first ++ " and " ++ Text.quoted second ++ " both map to " ++
      identifier
  | shadowsSchema name => "generated type " ++ name ++ " collides with a top-level schema"
  | taskFailed reason => "generation failed: " ++ reason
  | stated _ message => message

end Issue.Cause

/-- A cause and the path of the part it concerns, which may be empty. -/
structure Issue where
  path : String
  cause : Issue.Cause

/-- The text of an issue. -/
def Issue.text (i : Issue) : String :=
  if i.path.isEmpty then i.cause.message
  else "schema " ++ i.path ++ ": " ++ i.cause.message

end SchemaTypes
