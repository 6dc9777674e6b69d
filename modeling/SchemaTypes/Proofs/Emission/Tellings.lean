import SchemaTypes.Proofs.Emission.Closure

/-!
# What emissions tell

A property of lists of events holds of what every emission tells if it holds of what each piece
tells, and of one list behind another if it holds of both (`Emit.tells_closed`). Two such properties
are that everything that is registered declares its name, and that everything that is mentioned is
registered or named by a reference.
-/

namespace SchemaTypes

open Declaration Event

namespace Emit

variable {α : Type} {mayMention mayRegister : String → Prop}

/-- What an emission tells has a property, whatever is remembered. -/
def Tells (P : List Event → Prop) (x : Emit α) : Prop := ∀ memory, P (x memory).events

/-- What is told has a property that each piece has and that appending keeps. -/
theorem tells_closed {maySearch mayFail : Prop} {P : List Event → Prop} (hnil : P [])
    (happend : ∀ xs ys, P xs → P ys → P (xs ++ ys))
    (htell : ∀ event : Event, event.Plain mayFail → P [event])
    (hlearn : maySearch → ∀ shape candidates, P [.learn shape candidates])
    (hmention : ∀ name, mayMention name → P [.mention name])
    (hregister : ∀ name text, mayRegister name → Declares text name → P [.register name text])
    (hhoist : ∀ name text, mayRegister name → Declares text name →
      P [.register name text, .mention name]) :
    Closed mayMention mayRegister maySearch mayFail (Tells P) where
  done _ _ := hnil
  fail _ _ _ := hnil
  write _ _ := hnil
  tell event hplain _ := htell event hplain
  mention name hname _ := hmention name hname
  register name text hname h _ := hregister name text hname h
  hoist name text hname h _ := hhoist name text hname h
  capture {x} hx memory := by
    have hevents : (capture x memory).events = (x memory).events := Act.events_map_tell _
    rw [hevents]
    exact hx memory
  search find hsearch memory := by
    have hall : ∀ events : List Event, (∀ event ∈ events, P [event]) → P events := by
      intro events
      induction events with
      | nil => exact fun _ ↦ hnil
      | cons event rest ih =>
        intro hall
        obtain ⟨hfirst, hrest⟩ := List.forall_mem_cons.mp hall
        exact happend [event] rest hfirst (ih hrest)
    cases hfind : find memory with
    | error e =>
      rw [search, hfind]
      exact hnil
    | ok found =>
      rw [search_apply_of_ok hfind, Emission.events, Act.events_map_tell]
      refine hall _ fun event hevent ↦ ?_
      obtain ⟨record, -, rfl⟩ | ⟨learnt, -, rfl⟩ := mem_searchEvents.mp hevent
      · exact htell _ (.note record)
      · exact hlearn hsearch learnt.1 learnt.2
  bindResult {_ _ x f} hx hf memory := by
    cases hrun : x memory with
    | mk acts later result =>
      have hfirst : P (Act.events acts) := by
        have hevents := hx memory
        rwa [hrun] at hevents
      cases result with
      | error e =>
        rw [bind_apply_of_error hrun]
        exact hfirst
      | ok a =>
        rw [bind_apply_of_ok hrun, Emission.events, Act.events_append]
        have hresult : (x memory).result = .ok a := by rw [hrun]
        exact happend _ _ hfirst (hf a memory hresult later)

end Emit

/-- Every name that events mention may be mentioned or is registered by them. -/
def Event.Supported (mayMention : String → Prop) (events : List Event) : Prop :=
  ∀ name ∈ mentions events, mayMention name ∨ name ∈ Entries.names (registrations events)

/-- Everything that events register declares the name it is registered under. -/
def Event.Declaring (events : List Event) : Prop :=
  ∀ d ∈ registrations events, Declares d.2 d.1

theorem Emit.supported_closed (mayMention : String → Prop) :
    Closed mayMention (fun _ ↦ True) True True (Tells (Supported mayMention)) := by
  refine tells_closed ?_ ?_ ?_ ?_ ?_ ?_ ?_
  · intro name hname
    cases hname
  · intro xs ys hxs hys name hname
    rw [registrations_append, Entries.names, List.map_append, List.mem_append]
    rw [mentions_append, List.mem_append] at hname
    rcases hname with hname | hname
    · exact (hxs name hname).imp_right .inl
    · exact (hys name hname).imp_right .inr
  · intro event hplain name hname
    rw [mentions_cons, hplain.mention?_eq_none] at hname
    cases hname
  · intro _ shape candidates name hname
    cases hname
  · intro other hother name hname
    obtain rfl := List.mem_singleton.mp hname
    exact .inl hother
  · intro other text _ _ name hname
    cases hname
  · intro other text _ _ name hname
    obtain rfl := List.mem_singleton.mp hname
    exact .inr List.mem_cons_self

/-- What holds of every declaration under a name that it may be registered under holds of all that
is registered. -/
theorem Emit.registrations_closed (mayMention : String → Prop) {mayRegister : String → Prop}
    {P : String × String → Prop}
    (h : ∀ name text, mayRegister name → Declares text name → P (name, text)) :
    Closed mayMention mayRegister True True
      (Tells fun events ↦ ∀ d ∈ registrations events, P d) := by
  refine tells_closed (List.forall_mem_nil _) ?_ ?_ ?_ ?_ ?_ ?_
  · intro xs ys hxs hys
    rw [registrations_append]
    exact List.forall_mem_append.mpr ⟨hxs, hys⟩
  · intro event hplain d hd
    rw [registrations_cons, hplain.registration?_eq_none] at hd
    cases hd
  · intro _ shape candidates d hd
    cases hd
  · intro name _ d hd
    cases hd
  · intro name text hname hdeclares
    exact List.forall_mem_singleton.mpr (h name text hname hdeclares)
  · intro name text hname hdeclares
    exact List.forall_mem_singleton.mpr (h name text hname hdeclares)

namespace Schema

/-- What an emission mentions is hoisted by it, or is the identifier of a schema referred to. -/
theorem supported_emitNamed {env : Environment} {names : List String} {s : Schema}
    (hs : ∀ u, env.document.Leads s u → u.RefersTo names) (name : String) :
    Emit.Tells (Supported fun mentioned ↦ ∃ n ∈ names, env.typeName n = mentioned)
      (emitNamed env name s) := by
  refine emitNamed_closed (Emit.supported_closed _) (fun _ ↦ ⟨trivial, trivial⟩) (.inl trivial)
    (.everywhere env) ?_ (fun _ _ _ _ _ ↦ ⟨trivial, trivial⟩) fun _ _ _ ↦ trivial
  intro u hu t ht href n hn
  exact ⟨n, hs u hu t ht href n hn, rfl⟩

theorem declaring_emitNamed (env : Environment) (name : String) (s : Schema) :
    Emit.Tells Declaring (emitNamed env name s) :=
  emitNamed_closed (Emit.registrations_closed (fun _ ↦ True) fun _ _ _ hdeclares ↦ hdeclares)
    (fun _ ↦ ⟨trivial, trivial⟩) (.inl trivial) (.everywhere env) (fun _ _ _ _ _ _ _ ↦ trivial)
    (fun _ _ _ _ _ ↦ ⟨trivial, trivial⟩) fun _ _ _ ↦ trivial

end Schema

end SchemaTypes
