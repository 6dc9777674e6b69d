import Mathlib.Logic.Function.Basic
import SchemaTypes.Config

/-!
# Keys of a configuration

A configuration object is read member by member. As long as no operation is hidden and the record is
not replaced, a configuration is nothing but a value for each setting (`Config.ofValues`), and a
member either sets one of these values or does nothing (`Config.assign_ofValues`). So what is read
depends on the members that name settings alone.

A few keys name no setting and are not ignored either (`Config.reserved`). Objects are read by their
settings alone exactly as long as these keys do not occur (`Config.read_by_settings_iff`).
-/

namespace SchemaTypes

theorem Setting.ofKey?_eq_some_iff {key : String} {s : Setting} :
    ofKey? key = some s ↔ s.key = key := by
  constructor
  · intro h
    simpa using List.find?_some h
  · rintro rfl
    exact ofKey?_key s

namespace Config

/-- The keys that name no setting but an operation of the record or the record itself. -/
def reserved : List String := ["worker_count", "to_dict", "__dict__", "__class__", "__weakref__"]

/-- The members of an object that name settings. -/
def settingsAmong (members : List (String × Json)) : List (String × Json) :=
  members.filter fun m ↦ (Setting.ofKey? m.1).isSome

/-- The listing of settings with the given values. -/
def listing (values : Setting → Json) : List (String × Json) :=
  Setting.all.map fun s ↦ (s.key, values s)

/-- The listing that the members of an object make of the initial one: each of them that names a
setting overwrites its value. -/
def overwritten (members : List (String × Json)) : List (String × Json) :=
  Entries.setAll (listing Setting.initial) (settingsAmong members)

/-- An object is read by its settings alone: the configuration is that of the members that name
settings, it lists the initial values overwritten by these members, and the number of workers is
what the listing says, or else the number of processors. -/
def IsReadBySettings (members : List (String × Json)) : Prop :=
  ∃ c, read (.object members) = .ok c ∧ read (.object (settingsAmong members)) = .ok c ∧
    c.toJson = .ok (.object (overwritten members)) ∧
    ∃ workers, (overwritten members).lookup Setting.maxWorkers.key = some workers ∧
      ∀ processors, c.workers processors =
        (isPositive workers).map fun positive ↦ if positive then workers else .int processors

/-! ## Configurations that are values of settings -/

/-- The configuration with the given values, which hides no operation. -/
def ofValues (values : Setting → Json) : Config := ⟨fun s ↦ some (values s), none, none⟩

/-- The values after a member: that of the setting it names is its own. -/
def take (values : Setting → Json) (member : String × Json) : Setting → Json :=
  match Setting.ofKey? member.1 with
  | some s => Function.update values s member.2
  | none => values

section

variable (values : Setting → Json)

theorem take_of_eq_some {member : String × Json} {s : Setting}
    (h : Setting.ofKey? member.1 = some s) :
    take values member = Function.update values s member.2 := by
  rw [take, h]

theorem take_of_eq_none {member : String × Json} (h : Setting.ofKey? member.1 = none) :
    take values member = values := by
  rw [take, h]

theorem toJson_ofValues : (ofValues values).toJson = .ok (.object (listing values)) := rfl

theorem workers_ofValues (processors : Nat) :
    (ofValues values).workers processors =
      (isPositive (values .maxWorkers)).map fun positive ↦
        if positive then values .maxWorkers else .int processors := by
  cases h : isPositive (values .maxWorkers) <;>
  simp [workers, ofValues, get, h, bind, Except.bind, Except.map, pure, Except.pure]

theorem lookup_listing (s : Setting) : (listing values).lookup s.key = some (values s) := by
  cases s <;> rfl

/-- A setting is listed at its own place. -/
theorem set_listing (s : Setting) (value : Json) :
    Entries.set s.key value (listing values) = listing (Function.update values s value) := by
  cases s <;> rfl

theorem set_ofValues (s : Setting) (value : Json) :
    (ofValues values).set s value = ofValues (Function.update values s value) := by
  rw [set, ofValues, ofValues, Config.mk.injEq]
  refine ⟨funext fun t ↦ ?_, rfl, rfl⟩
  rw [Function.update_apply]
  exact (apply_ite some (t = s) value (values t)).symm

/-- A member whose key is not reserved sets the value of a setting, or does nothing. -/
theorem assign_ofValues {member : String × Json} (h : member.1 ∉ reserved) :
    (ofValues values).assign member.1 member.2 = .ok (ofValues (take values member)) := by
  cases hs : Setting.ofKey? member.1 with
  | some s =>
    rw [take_of_eq_some values hs, ← set_ofValues]
    unfold assign
    rw [hs]
    rfl
  | none =>
    simp only [reserved, List.mem_cons, List.not_mem_nil, or_false, not_or] at h
    obtain ⟨hworkers, hlisting, hrecord, hclass, hlink⟩ := h
    rw [take_of_eq_none values hs]
    unfold assign
    rw [hs]
    dsimp only
    split
    · exact absurd ‹_› hworkers
    · exact absurd ‹_› hlisting
    · exact absurd ‹_› hrecord
    · exact absurd ‹_› hrecord
    · exact absurd ‹_› hclass
    · exact absurd ‹_› hlink
    · rfl

end

/-! ## Objects without reserved keys -/

section

variable {m : String × Json} {members : List (String × Json)} (values : Setting → Json)

theorem settingsAmong_cons_of_eq_some {s : Setting} (h : Setting.ofKey? m.1 = some s) :
    settingsAmong (m :: members) = m :: settingsAmong members :=
  List.filter_cons_of_pos (by rw [h]; rfl)

theorem settingsAmong_cons_of_eq_none (h : Setting.ofKey? m.1 = none) :
    settingsAmong (m :: members) = settingsAmong members :=
  List.filter_cons_of_neg (by rw [h]; exact Bool.false_ne_true)

theorem assignAll_ofValues (h : ∀ m ∈ members, m.1 ∉ reserved) :
    (ofValues values).assignAll members = .ok (ofValues (members.foldl take values)) := by
  induction members generalizing values with
  | nil => rfl
  | cons m rest ih =>
    obtain ⟨hm, hrest⟩ := List.forall_mem_cons.mp h
    rw [assignAll, assign_ofValues values hm]
    exact ih (take values m) hrest

/-- Members that name no setting make no difference to the values. -/
theorem foldl_take_settingsAmong :
    (settingsAmong members).foldl take values = members.foldl take values := by
  induction members generalizing values with
  | nil => rfl
  | cons m rest ih =>
    cases hs : Setting.ofKey? m.1 with
    | some s =>
      rw [settingsAmong_cons_of_eq_some hs]
      exact ih (take values m)
    | none =>
      rw [settingsAmong_cons_of_eq_none hs, List.foldl_cons, take_of_eq_none values hs]
      exact ih values

/-- The listing is overwritten as the values are. -/
theorem setAll_listing :
    Entries.setAll (listing values) (settingsAmong members) =
      listing (members.foldl take values) := by
  induction members generalizing values with
  | nil => rfl
  | cons m rest ih =>
    have hsetAll : ∀ entries : List (String × Json),
        Entries.setAll entries (m :: settingsAmong rest) =
          Entries.setAll (Entries.set m.1 m.2 entries) (settingsAmong rest) :=
      fun _ ↦ rfl
    cases hs : Setting.ofKey? m.1 with
    | some s =>
      have hset : Entries.set m.1 m.2 (listing values) = listing (take values m) := by
        rw [take_of_eq_some values hs, ← set_listing, Setting.ofKey?_eq_some_iff.mp hs]
      rw [settingsAmong_cons_of_eq_some hs, hsetAll, hset]
      exact ih (take values m)
    | none =>
      rw [settingsAmong_cons_of_eq_none hs, List.foldl_cons, take_of_eq_none values hs]
      exact ih values

end

/-- An object without reserved keys is read by its settings alone. -/
theorem isReadBySettings_of_forall {members : List (String × Json)}
    (h : ∀ m ∈ members, m.1 ∉ reserved) : IsReadBySettings members := by
  have hread : ∀ {ms : List (String × Json)}, (∀ m ∈ ms, m.1 ∉ reserved) →
      read (.object ms) = .ok (ofValues (ms.foldl take Setting.initial)) :=
    fun hms ↦ assignAll_ofValues Setting.initial hms
  have hlisting : overwritten members = listing (members.foldl take Setting.initial) :=
    setAll_listing Setting.initial
  have hamong : ∀ m ∈ settingsAmong members, m.1 ∉ reserved :=
    fun m hm ↦ h m (List.mem_filter.mp hm).1
  refine ⟨_, hread h, ?_, ?_, _, ?_, workers_ofValues _⟩
  · rw [hread hamong, foldl_take_settingsAmong]
  · rw [toJson_ofValues, hlisting]
  · rw [hlisting, lookup_listing]

/-! ## Reserved keys -/

/-- A reserved key hides an operation of the record, or its value is no record. -/
theorem not_isReadBySettings_of_mem {key : String} (h : key ∈ reserved) :
    ¬ IsReadBySettings [(key, .int 3)] := by
  rintro ⟨c, hread, halone, -⟩
  simp only [reserved, List.mem_cons, List.not_mem_nil, or_false] at h
  rcases h with rfl | rfl | rfl | rfl | rfl
  · have hsame : Config.mk _ none (some (.int 3)) = default :=
      Except.ok.inj (hread.trans halone.symm)
    cases congrArg Config.hiddenWorkers hsame
  · have hsame : Config.mk _ (some (.int 3)) none = default :=
      Except.ok.inj (hread.trans halone.symm)
    cases congrArg Config.hiddenListing hsame
  all_goals cases hread

/-- **Which keys are ignored.** Objects whose keys are of some kind are all read by their settings
alone exactly if no reserved key is of that kind. -/
theorem read_by_settings_iff (kind : String → Prop) :
    (∀ members : List (String × Json), (∀ m ∈ members, kind m.1) → IsReadBySettings members) ↔
      ∀ key ∈ reserved, ¬ kind key := by
  constructor
  · intro h key hkey hkind
    exact not_isReadBySettings_of_mem hkey (h _ (List.forall_mem_singleton.mpr hkind))
  · intro h members hmembers
    exact isReadBySettings_of_forall fun m hm hreserved ↦ h m.1 hreserved (hmembers m hm)

/-- The number of workers cannot be asked for any more once a member has its name. -/
theorem not_read_by_settings :
    ¬ ∀ members : List (String × Json), IsReadBySettings members :=
  fun h ↦ not_isReadBySettings_of_mem (by decide : "worker_count" ∈ reserved) (h _)

end Config

end SchemaTypes
