import Mathlib.Data.List.Forall2
import SchemaTypes.Proofs.DocTable.Textual
import SchemaTypes.Proofs.Emission.Isolation
import SchemaTypes.Proofs.Emission.Tellings
import SchemaTypes.Proofs.Text.Remarks

/-!
# Emissions that differ in remarks

Two emissions are compared run by run (`Emit.Coupled`): what they write is related by a relation of
texts, what they result in by one of results, and what they tell is the same but for remarks in what
is registered. The relation of texts is a parameter, because the parts of a text are not related as
the whole is: a comment alone stands beside nothing at all, and only together with the line behind
it and the line feed before it is it a remark between lines.

Most emissions do without tables. What neither looks at tables nor learns of any is coupled with
itself (`Emit.Inert.comments`), and that is a closed property of emissions.
-/

namespace SchemaTypes

open Correlator Declaration Text

/-! ## What is told -/

namespace Event

/-- What is told is the same but for remarks in what is registered, and but for what a search tells,
by which only textual tables are learnt of. -/
structure Commented (xs ys : List Event) : Prop where
  registrations : List.Forall₂ (fun d e ↦ d.1 = e.1 ∧ Text.Commented d.2 e.2) (registrations xs)
    (registrations ys)
  requirements : requirements xs = requirements ys
  reports : reports xs = reports ys
  learnt : ∀ shape candidates, .learn shape candidates ∈ xs → TextualCandidates candidates

namespace Commented

variable {xs ys : List Event}

theorem nil : Commented [] [] where
  registrations := .nil
  requirements := rfl
  reports := rfl
  learnt shape candidates hmem := by cases hmem

theorem append {xs' ys' : List Event} (h : Commented xs ys) (h' : Commented xs' ys') :
    Commented (xs ++ xs') (ys ++ ys') where
  registrations := by
    rw [registrations_append, registrations_append]
    exact List.rel_append h.registrations h'.registrations
  requirements := by
    rw [Event.requirements, Event.requirements, List.filterMap_append, List.filterMap_append]
    exact congrArg₂ _ h.requirements h'.requirements
  reports := by rw [reports_append, reports_append, h.reports, h'.reports]
  learnt shape candidates hmem := by
    rcases List.mem_append.mp hmem with hmem | hmem
    · exact h.learnt shape candidates hmem
    · exact h'.learnt shape candidates hmem

/-- Where nothing is learnt, what is told is told on both sides. -/
theorem refl (h : ∀ shape candidates, .learn shape candidates ∉ xs) : Commented xs xs where
  registrations := List.forall₂_same.mpr fun d _ ↦ ⟨rfl, .refl d.2⟩
  requirements := rfl
  reports := rfl
  learnt shape candidates hmem := absurd hmem (h shape candidates)

theorem register (name : String) {annotated plain : String}
    (h : Text.Commented annotated plain) :
    Commented [.register name annotated] [.register name plain] where
  registrations := .cons ⟨rfl, h⟩ .nil
  requirements := rfl
  reports := rfl
  learnt shape candidates hmem := by cases List.mem_singleton.mp hmem

/-- A search tells nothing but what it learns, apart from notes. -/
theorem search {found : Finding} (h : Memory.Textual found.learnt) :
    Commented (Emit.searchEvents found) [] := by
  refine ⟨?_, Emit.filterMap_searchEvents (fun _ ↦ rfl) (fun _ _ ↦ rfl) found,
    Emit.filterMap_searchEvents (fun _ ↦ rfl) (fun _ _ ↦ rfl) found, ?_⟩
  · rw [Event.registrations, Emit.filterMap_searchEvents (fun _ ↦ rfl) (fun _ _ ↦ rfl)]
    exact .nil
  · intro shape candidates hmem
    obtain ⟨record, -, ⟨⟩⟩ | ⟨learnt, hlearnt, ⟨⟩⟩ := Emit.mem_searchEvents.mp hmem
    exact h learnt hlearnt

end Commented

end Event

/-! ## Two emissions side by side -/

variable {α β γ δ : Type}

/-- Two emissions tell the same up to remarks; either both end early for one reason, or what they
write and what they result in is related. -/
inductive Emission.Coupled (T : String → String → Prop) (R : α → β → Prop) :
    Emission α → Emission β → Prop
  | ended {acts acts' : List Act} {memory memory' : Memory} {a : α} {b : β} : memory.Textual →
      Event.Commented (Act.events acts) (Act.events acts') → T (Act.text acts) (Act.text acts') →
        R a b → Coupled T R ⟨acts, memory, .ok a⟩ ⟨acts', memory', .ok b⟩
  | failed {acts acts' : List Act} {memory memory' : Memory} (e : Mismatch) :
      Event.Commented (Act.events acts) (Act.events acts') →
        Coupled T R ⟨acts, memory, .error e⟩ ⟨acts', memory', .error e⟩

namespace Emit

/-- Two emissions are coupled, whatever is remembered of textual tables. -/
def Coupled (T : String → String → Prop) (R : α → β → Prop) (x : Emit α) (y : Emit β) : Prop :=
  ∀ memory memory' : Memory, memory.Textual → Emission.Coupled T R (x memory) (y memory')

/-- Nothing is written. -/
def Silent (s t : String) : Prop := s = "" ∧ t = ""

/-- The first emission does what the second one does, and puts remarks between lines. -/
abbrev Comments (x y : Emit α) : Prop := Coupled Text.Commented Eq x y

/-- An emission neither looks at what is remembered of tables nor learns of any. -/
def Inert (x : Emit α) : Prop :=
  x.Memoryless ∧ x.Tells fun events ↦ ∀ shape candidates, .learn shape candidates ∉ events

variable {T T' T'' : String → String → Prop} {R : α → β → Prop} {S : γ → δ → Prop}
  {x : Emit α} {y : Emit β} {f : α → Emit γ} {g : β → Emit δ}

theorem Coupled.mono (h : Coupled T R x y) (hT : ∀ s t, T s t → T' s t) : Coupled T' R x y := by
  intro memory memory' hmemory
  have hcoupled := h memory memory' hmemory
  generalize x memory = e at hcoupled ⊢
  generalize y memory' = e' at hcoupled ⊢
  rcases hcoupled with ⟨hlater, hevents, htext, hresult⟩ | ⟨m, hevents⟩
  · exact .ended hlater hevents (hT _ _ htext) hresult
  · exact .failed m hevents

/-- Emissions in turn are coupled if each is, by a relation that holds of texts put together. -/
theorem Coupled.join (hT : ∀ s s' t t', T s s' → T' t t' → T'' (s ++ t) (s' ++ t'))
    (hx : Coupled T R x y) (hf : ∀ a b, R a b → Coupled T' S (f a) (g b)) :
    Coupled T'' S (x >>= f) (y >>= g) := by
  intro memory memory' hmemory
  have hfirst := hx memory memory' hmemory
  rcases hxm : x memory with ⟨acts, later, result⟩
  rcases hym : y memory' with ⟨acts', later', result'⟩
  rw [hxm, hym] at hfirst
  rcases hfirst with ⟨hlater, hevents, htext, hresult⟩ | ⟨m, hevents⟩
  · next a b =>
    rw [bind_apply_of_ok hxm, bind_apply_of_ok hym]
    have hnext := hf a b hresult later later' hlater
    generalize f a later = e at hnext ⊢
    generalize g b later' = e' at hnext ⊢
    rcases hnext with ⟨hlast, hmore, hmoreText, hfinal⟩ | ⟨m, hmore⟩
    · refine .ended hlast ?_ ?_ hfinal
      · rw [Act.events_append, Act.events_append]
        exact hevents.append hmore
      · rw [Act.text_append, Act.text_append]
        exact hT _ _ _ _ htext hmoreText
    · refine .failed m ?_
      rw [Act.events_append, Act.events_append]
      exact hevents.append hmore
  · rw [bind_apply_of_error hxm, bind_apply_of_error hym]
    exact .failed m hevents

theorem Coupled.bind (hx : Coupled Text.Commented R x y)
    (hf : ∀ a b, R a b → Coupled Text.Commented S (f a) (g b)) :
    Coupled Text.Commented S (x >>= f) (y >>= g) :=
  hx.join (fun _ _ _ _ hs ht ↦ hs.append ht) hf

/-- What nothing is written before keeps its relation. -/
theorem Coupled.silent_bind (hx : Coupled Silent R x y)
    (hf : ∀ a b, R a b → Coupled T S (f a) (g b)) : Coupled T S (x >>= f) (y >>= g) := by
  refine hx.join ?_ hf
  rintro s s' t t' ⟨rfl, rfl⟩ ht
  rwa [String.empty_append, String.empty_append]

theorem Coupled.comments {x y : Emit α} (h : Coupled Silent Eq x y) : Comments x y := by
  refine h.mono ?_
  rintro s t ⟨rfl, rfl⟩
  exact .refl ""

theorem Comments.bind {x y : Emit α} {f g : α → Emit γ} (hx : Comments x y)
    (hf : ∀ a, Comments (f a) (g a)) : Comments (x >>= f) (y >>= g) := by
  refine Coupled.bind hx ?_
  rintro a _ rfl
  exact hf a

theorem Inert.comments {x : Emit α} (h : x.Inert) : Comments x x := by
  intro memory memory' hmemory
  have hlearnt := h.2 memory
  rw [h.1 memory] at hlearnt ⊢
  rw [h.1 memory']
  cases (x []).result with
  | ok a => exact .ended hmemory (.refl hlearnt) (.refl _) rfl
  | error m => exact .failed m (.refl hlearnt)

theorem coupled_done (hT : T "" "") {a : α} {b : β} (h : R a b) :
    Coupled T R (done a) (done b) :=
  fun _ _ hmemory ↦ .ended hmemory .nil hT h

/-- Both go on with one value, or end early without it. -/
theorem coupled_lift_bind {value : Except Mismatch α} {f : α → Emit γ} {g : α → Emit δ}
    (h : ∀ a, value = .ok a → Coupled T S (f a) (g a)) :
    Coupled T S (lift value >>= f) (lift value >>= g) := by
  cases value with
  | ok a => exact h a rfl
  | error m => exact fun _ _ _ ↦ .failed m .nil

theorem coupled_write {s t : String} (h : T s t) : Coupled T Eq (write s) (write t) := by
  intro memory memory' hmemory
  have htext : ∀ text : String, Act.text [.write text] = text := fun text ↦ String.append_empty
  refine .ended hmemory .nil ?_ rfl
  rwa [htext, htext]

theorem coupled_note (level : Log.Level) (source : Log.Source) (message : String) :
    Coupled Silent Eq (note level source message) (note level source message) := by
  intro memory memory' hmemory
  refine .ended hmemory (.refl fun shape candidates hmem ↦ ?_) ⟨rfl, rfl⟩ rfl
  cases List.mem_singleton.mp hmem

theorem comments_register (name : String) {annotated plain : String}
    (h : Text.Commented annotated plain) :
    Comments (tell (.register name annotated)) (tell (.register name plain)) :=
  fun _ _ hmemory ↦ .ended hmemory (.register name h) (.refl "") rfl

/-- What is captured has remarks between its lines. -/
theorem Comments.capture {x y : Emit Unit} (h : Comments x y) :
    Coupled Silent Text.Commented (capture x) (capture y) := by
  intro memory memory' hmemory
  have hcoupled := h memory memory' hmemory
  rw [Emit.capture, Emit.capture]
  generalize x memory = e at hcoupled ⊢
  generalize y memory' = e' at hcoupled ⊢
  rcases hcoupled with ⟨hlater, hevents, htext, -⟩ | ⟨m, hevents⟩
  · refine .ended hlater ?_ ⟨Act.text_map_tell _, Act.text_map_tell _⟩ htext
    rw [Act.events_map_tell, Act.events_map_tell]
    exact hevents
  · refine .failed m ?_
    rw [Act.events_map_tell, Act.events_map_tell]
    exact hevents

theorem coupled_each {ι : Type} (hnil : T "" "")
    (happend : ∀ s s' t t', T s s' → T t t' → T (s ++ t) (s' ++ t')) {xs : List ι}
    {f g : ι → Emit Unit} (h : ∀ i ∈ xs, Coupled T Eq (f i) (g i)) :
    Coupled T Eq (each (xs.map f)) (each (xs.map g)) := by
  induction xs with
  | nil => exact coupled_done hnil rfl
  | cons i rest ih =>
    exact (h i List.mem_cons_self).join happend fun _ _ _ ↦
      ih fun j hj ↦ h j (List.mem_cons_of_mem i hj)

theorem comments_each {ι : Type} {xs : List ι} {f g : ι → Emit Unit}
    (h : ∀ i ∈ xs, Comments (f i) (g i)) : Comments (each (xs.map f)) (each (xs.map g)) :=
  coupled_each (.refl "") (fun _ _ _ _ hs ht ↦ hs.append ht) h

/-- What is emitted without a search for tables does without them. -/
theorem inert_closed : Closed (fun _ ↦ True) (fun _ ↦ True) False True Inert := by
  refine memoryless_closed.and (tells_closed ?_ ?_ ?_ ?_ ?_ ?_ ?_)
  · exact fun shape candidates hmem ↦ by cases hmem
  · intro xs ys hxs hys shape candidates hmem
    rcases List.mem_append.mp hmem with hmem | hmem
    · exact hxs shape candidates hmem
    · exact hys shape candidates hmem
  · intro event hplain shape candidates hmem
    obtain rfl := List.mem_singleton.mp hmem
    cases hplain
  · exact fun hsearch ↦ hsearch.elim
  · exact fun _ _ shape candidates hmem ↦ by cases List.mem_singleton.mp hmem
  · exact fun _ _ _ _ shape candidates hmem ↦ by cases List.mem_singleton.mp hmem
  · exact fun name text _ _ shape candidates hmem ↦ by simp at hmem

end Emit

end SchemaTypes
