import Mathlib.Data.List.TakeWhile
import SchemaTypes.Declaration.TypeExpression

/-!
# What texts declare

The text of a declaration begins with what it declares: with the name of its type, or with the
remark on a union and the interface of that union behind it (`Declares`). What is emitted for a
schema does so for the identifier of the schema with the first text that is written, unless emission
ends before that (`writesDeclaration_emitNamed`). So it is a declaration also where it is cut off.

Blocks of unions are trimmed before they are written. That takes line feeds off their end, and the
end lies behind the beginning of the interface (`trimFeeds_append`).
-/

namespace SchemaTypes

/-- The text without the line feeds at its end, and the line feeds. -/
theorem TypeExpression.exists_trimFeeds_append (s : String) :
    ∃ n, trimFeeds s ++ String.ofList (List.replicate n '\n') = s := by
  refine ⟨(s.toList.reverse.takeWhile (· == '\n')).length, ?_⟩
  have hfeeds : s.toList.reverse.takeWhile (· == '\n') =
      List.replicate (s.toList.reverse.takeWhile (· == '\n')).length '\n' := by
    refine List.eq_replicate_iff.mpr ⟨rfl, fun c hc ↦ ?_⟩
    exact beq_iff_eq.mp (List.all_eq_true.mp List.all_takeWhile c hc)
  have hsplit := List.takeWhile_append_dropWhile (p := (· == '\n')) (l := s.toList.reverse)
  rw [trimFeeds, Text.onChars, ← String.ofList_append, ← List.reverse_replicate, ← hfeeds,
    ← List.reverse_append, hsplit, List.reverse_reverse, String.ofList_toList]

namespace Declaration

open TypeExpression

/-- The comment in front of the interface of a union. -/
def unionRemark (union : String) (variants : List String) : String :=
  "// " ++ union ++ " is a union of the following types:\n" ++
    String.join (variants.map fun v ↦ "//   - [" ++ v ++ "]\n")

/-- A text declares a type of a name, and begins with that. -/
inductive Declares : String → String → Prop
  | type (name rest : String) : Declares ("type " ++ name ++ " " ++ rest) name
  | union (name : String) (variants : List String) (rest : String) :
      Declares (unionRemark name variants ++ ("type " ++ name ++ " interface \x7b\n\tis" ++ rest))
        name

theorem Declares.append {text name : String} (h : Declares text name) (more : String) :
    Declares (text ++ more) name := by
  cases h with
  | type _ rest =>
    rw [String.append_assoc]
    exact .type name (rest ++ more)
  | union _ variants rest =>
    rw [String.append_assoc, String.append_assoc]
    exact .union name variants (rest ++ more)

/-- Trimming takes nothing away in front of a character that is no line feed. -/
theorem trimFeeds_append {c : Char} {back : String} (hmem : c ∈ back.toList) (hc : c ≠ '\n')
    (front : String) : trimFeeds (front ++ back) = front ++ trimFeeds back := by
  have hstop : (back.toList.reverse.dropWhile (· == '\n')).isEmpty = false := by
    rw [List.isEmpty_eq_false_iff, ne_eq, List.dropWhile_eq_nil_iff]
    intro hall
    exact hc (beq_iff_eq.mp (hall c (List.mem_reverse.mpr hmem)))
  rw [← String.toList_inj]
  simp only [trimFeeds, Text.toList_onChars, String.toList_append, List.reverse_append,
    List.dropWhile_append, hstop, Bool.false_eq_true, if_false, List.reverse_reverse]

/-- The block of a union declares it. -/
theorem declares_unionBlock (union : String) (variants : List String) :
    Declares (trimFeeds (unionBlock union variants)) union := by
  have hblock : unionBlock union variants =
      (unionRemark union variants ++ ("type " ++ union ++ " interface \x7b\n\tis")) ++
        (union ++ "()\n\x7d\n\n" ++
          String.join
            (variants.map fun v ↦ "func (" ++ v ++ ") is" ++ union ++ "() \x7b\x7d\n")) := by
    simp only [unionBlock, unionRemark, String.append_assoc]
  have hmem : '(' ∈ (union ++ "()\n\x7d\n\n" ++ String.join
      (variants.map fun v ↦ "func (" ++ v ++ ") is" ++ union ++ "() \x7b\x7d\n")).toList := by
    simp
  rw [hblock, trimFeeds_append hmem (by decide), String.append_assoc]
  exact .union union variants _

end Declaration

/-! ## Emitted declarations -/

/-- The text that acts write first, if they write any. -/
def Act.firstText? : List Act → Option String
  | [] => none
  | .write text :: _ => some text
  | .tell _ :: rest => firstText? rest

/-- What acts write begins with what they write first. -/
theorem Act.text_eq_firstText_append (acts : List Act) :
    text acts = "" ∧ firstText? acts = none ∨
      ∃ first rest, firstText? acts = some first ∧ text acts = first ++ rest := by
  induction acts with
  | nil => exact .inl ⟨rfl, rfl⟩
  | cons act rest ih =>
    cases act with
    | write s => exact .inr ⟨s, text rest, rfl, rfl⟩
    | tell event => exact ih

namespace TypeExpression

open Declaration

/-- An emission writes a declaration, and begins with that, or it ends before it writes anything. -/
def WritesDeclaration (name : String) (x : Emit Unit) : Prop :=
  ∀ memory, (∀ first, Act.firstText? (x memory).acts = some first → Declares first name) ∧
    (Act.firstText? (x memory).acts = none → ∃ e, (x memory).result = .error e)

theorem WritesDeclaration.of_ended {name : String} {x : Emit Unit} (h : WritesDeclaration name x)
    {memory : Correlator.Memory} (hended : (x memory).result = .ok ()) :
    Declares (x memory).text name := by
  obtain ⟨hfirst, hnone⟩ := h memory
  rcases Act.text_eq_firstText_append (x memory).acts with ⟨-, hempty⟩ | ⟨first, rest, hsome, htext⟩
  · obtain ⟨e, he⟩ := hnone hempty
    rw [he] at hended
    cases hended
  · rw [Emission.text, htext]
    exact (hfirst first hsome).append rest

theorem WritesDeclaration.lift_bind {α : Type} {name : String} (value : Except Mismatch α)
    {f : α → Emit Unit} (hf : ∀ a, value = .ok a → WritesDeclaration name (f a)) :
    WritesDeclaration name (Emit.lift value >>= f) := by
  intro memory
  cases value with
  | ok a => exact hf a rfl memory
  | error e => exact ⟨fun first hfirst ↦ (by cases hfirst), fun _ ↦ ⟨e, rfl⟩⟩

/-- What is told in front of a declaration does not matter. -/
theorem WritesDeclaration.tell_bind {name : String} (event : Event) {f : Unit → Emit Unit}
    (hf : WritesDeclaration name (f ())) : WritesDeclaration name (Emit.tell event >>= f) :=
  fun memory ↦ hf memory

/-- What follows a declaration that has been written does not matter. -/
theorem WritesDeclaration.write_bind {name text : String} (h : Declares text name)
    (f : Unit → Emit Unit) : WritesDeclaration name (Emit.write text >>= f) := by
  intro memory
  refine ⟨fun first hfirst ↦ ?_, fun hnone ↦ by cases hnone⟩
  cases hfirst
  exact h

theorem writesDeclaration_namedUnion (env : Environment) (union : String) (branches : List Part)
    (path : Path) : WritesDeclaration union (namedUnion env union branches path) := by
  refine .tell_bind _ (.lift_bind _ fun names _ ↦ .write_bind ?_ _)
  exact (declares_unionBlock union names).append "\n\n"

end TypeExpression

namespace Schema

open Declaration TypeExpression

/-- What is emitted for a schema declares its identifier, unless nothing is written. -/
theorem writesDeclaration_emitNamed (env : Environment) (name : String) (s : Schema) :
    WritesDeclaration (Identifier.ofMixedCase name) (emitNamed env name s) := by
  refine .lift_bind _ fun isAlias _ ↦ .lift_bind _ fun node _ ↦ .lift_bind _ fun branches _ ↦ ?_
  cases branches with
  | some branches => exact writesDeclaration_namedUnion env _ _ _
  | none =>
    have hdeclares := Declares.type (Identifier.ofMixedCase name) ""
    rw [String.append_empty] at hdeclares
    exact .write_bind hdeclares _

end Schema

end SchemaTypes
