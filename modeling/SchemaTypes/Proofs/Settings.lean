import SchemaTypes.Config
import SchemaTypes.Proofs.Json.Typing
import SchemaTypes.Proofs.Run.Schedule

/-!
# Configurations with the expected types

Settings keep the value they were given. In a well-typed configuration each setting has a value of
its type and no operation is hidden. Then the settings can be used
(`Config.WellTyped.exists_options_eq_ok`), and there is a number of workers that tasks can be given
to.
-/

namespace SchemaTypes

open Json

/-- The values that a setting is meant to have. -/
def Setting.Admits (value : Json) : Setting → Prop
  | packageName | optionImportPath => value.IsText
  | generationComment | trimResponseSuffix | docComments => ∃ b, value = .bool b
  | maxWorkers | maxReportedErrors => ∃ n, value = .int n
  | ignoreSchemas | enumNames | snowflakeKinds => value.IsList IsText
  | snowflakeFields => value.IsObject fun members ↦ ∀ m ∈ members, m.2.IsText

/-- Any number of workers is one that tasks can be given to. -/
theorem Schedule.exists_startLog_eq_ok (n : Int) (tasks : Nat) :
    ∃ log, startLog (.int n) tasks = .ok log :=
  exists_startLog_eq_ok_of_void_or_number (.inr rfl) tasks

namespace Config

/-- A configuration in which each setting has a value of its type, and the number of workers can be
asked for. -/
structure WellTyped (c : Config) : Prop where
  value : ∀ s, ∃ value, c.value? s = some value ∧ s.Admits value
  hiddenWorkers_eq_none : c.hiddenWorkers = none

theorem wellTyped_default : WellTyped default where
  value s := by
    refine ⟨s.initial, rfl, ?_⟩
    cases s with
    | packageName | optionImportPath => exact ⟨_, rfl⟩
    | generationComment | trimResponseSuffix | docComments => exact ⟨_, rfl⟩
    | maxWorkers | maxReportedErrors => exact ⟨_, rfl⟩
    | ignoreSchemas | snowflakeKinds => exact ⟨[], rfl, List.forall_mem_nil _⟩
    | snowflakeFields => exact ⟨[], rfl, List.forall_mem_nil _⟩
    | enumNames =>
      refine ⟨_, rfl, List.forall_mem_cons.mpr ⟨⟨_, rfl⟩, List.forall_mem_singleton.mpr ⟨_, rfl⟩⟩⟩
  hiddenWorkers_eq_none := rfl

variable {c : Config}

/-- A setting may take any value of its type. -/
theorem WellTyped.set (h : c.WellTyped) {s : Setting} {value : Json} (hvalue : s.Admits value) :
    (c.set s value).WellTyped where
  value t := by
    by_cases hts : t = s
    · subst hts
      exact ⟨value, if_pos rfl, hvalue⟩
    · obtain ⟨other, hother, hadmits⟩ := h.value t
      exact ⟨other, by rw [← hother]; exact if_neg hts, hadmits⟩
  hiddenWorkers_eq_none := h.hiddenWorkers_eq_none

theorem WellTyped.admits (h : c.WellTyped) {s : Setting} {value : Json}
    (hvalue : c.value? s = some value) : s.Admits value := by
  obtain ⟨other, hother, hadmits⟩ := h.value s
  rw [hvalue] at hother
  exact Option.some.inj hother ▸ hadmits

theorem WellTyped.exists_get_eq_ok (h : c.WellTyped) (s : Setting) :
    ∃ value, c.get s = .ok value ∧ s.Admits value := by
  obtain ⟨value, hvalue, hadmits⟩ := h.value s
  exact ⟨value, by rw [get, hvalue], hadmits⟩

theorem exists_textKeys_eq_ok {value : Json} (h : value.IsList IsText) :
    ∃ names, textKeys value = .ok names := by
  obtain ⟨items, rfl, hitems⟩ := h
  have hkey : ∀ item ∈ items, ∃ key, item.asKey = .ok key ∧ True := by
    intro item hitem
    obtain ⟨text, rfl⟩ := hitems item hitem
    exact ⟨.text text, rfl, trivial⟩
  obtain ⟨keys, hkeys, -⟩ := exists_mapM_eq_ok hkey
  refine ⟨keys.filterMap Key.text?, ?_⟩
  rw [textKeys, elements]
  dsimp only [bind, Except.bind]
  rw [hkeys]
  rfl

theorem exists_kindLines_eq_ok {value : Json} (h : value.IsList IsText) :
    ∃ lines, kindLines value = .ok lines := by
  obtain ⟨items, rfl, hitems⟩ := h
  rw [kindLines]
  split
  · exact ⟨[], rfl⟩
  · exact exists_joinable_eq_ok hitems 0

theorem exists_fieldKinds_eq_ok {value : Json}
    (h : value.IsObject fun members ↦ ∀ m ∈ members, m.2.IsText) :
    ∃ kinds, fieldKinds value = .ok kinds := by
  obtain ⟨members, rfl, hmembers⟩ := h
  rw [fieldKinds]
  split
  · exact ⟨[], rfl⟩
  · have hkind : ∀ m ∈ members, ∃ kind : String × String,
        (if m.2.isVoid then return (m.1, "") else return (m.1, ← m.2.textOr "strip") :
          Except Mismatch (String × String)) = .ok kind ∧ True := by
      intro m hm
      obtain ⟨text, htext⟩ := hmembers m hm
      rw [htext]
      split <;> exact ⟨_, rfl, trivial⟩
    obtain ⟨kinds, hkinds, -⟩ := exists_mapM_eq_ok hkind
    exact ⟨kinds, hkinds⟩

theorem exists_holds_eq_ok {value : Json} (h : value.IsList IsText) (sought : String) :
    ∃ found, value.holds sought = .ok found := by
  obtain ⟨items, rfl, -⟩ := h
  exact ⟨_, rfl⟩

/-- **The settings of a well-typed configuration can be used**: what is asked for at once, and what
not every document makes use of. -/
theorem WellTyped.exists_options_eq_ok (h : c.WellTyped) :
    ∃ options, c.options = .ok options ∧ options.optionImportPath.IsText ∧
      options.maxReportedErrors.isNumber = true ∧
      (∃ ignored, options.ignoreSchemas = .ok ignored) ∧
      ∀ name, ∃ isEnum, options.isEnumName name = .ok isEnum := by
  obtain ⟨kinds, hkinds, hkindsTyped⟩ := h.exists_get_eq_ok .snowflakeKinds
  obtain ⟨fields, hfields, hfieldsTyped⟩ := h.exists_get_eq_ok .snowflakeFields
  obtain ⟨package, hpackage, -⟩ := h.exists_get_eq_ok .packageName
  obtain ⟨path, hpath, hpathTyped⟩ := h.exists_get_eq_ok .optionImportPath
  obtain ⟨comment, hcomment, -⟩ := h.exists_get_eq_ok .generationComment
  obtain ⟨limit, hlimit, hlimitTyped⟩ := h.exists_get_eq_ok .maxReportedErrors
  obtain ⟨trim, htrim, -⟩ := h.exists_get_eq_ok .trimResponseSuffix
  obtain ⟨ignored, hignored, hignoredTyped⟩ := h.exists_get_eq_ok .ignoreSchemas
  obtain ⟨names, hnames, hnamesTyped⟩ := h.exists_get_eq_ok .enumNames
  obtain ⟨docs, hdocs, -⟩ := h.exists_get_eq_ok .docComments
  obtain ⟨lines, hlines⟩ := exists_kindLines_eq_ok hkindsTyped
  obtain ⟨byPath, hbyPath⟩ := exists_fieldKinds_eq_ok hfieldsTyped
  obtain ⟨keys, hkeys⟩ := exists_textKeys_eq_ok hignoredTyped
  refine ⟨{
    packageName := package.display
    optionImportPath := path
    generationComment := !comment.isVoid
    maxReportedErrors := limit
    trimResponseSuffix := !trim.isVoid
    ignoreSchemas := .ok keys
    enumNames := .ok names
    docComments := !docs.isVoid
    snowflakeKinds := lines
    snowflakeFields := byPath }, ?_, hpathTyped, ?_, ⟨keys, rfl⟩, ?_⟩
  · rw [options, hkinds, hfields, hpackage, hpath, hcomment, hlimit, htrim, hignored, hnames, hdocs]
    simp only [bind, Except.bind, pure, Except.pure, hlines, hbyPath, hkeys]
  · obtain ⟨n, rfl⟩ := hlimitTyped
    rfl
  · exact exists_holds_eq_ok hnamesTyped

theorem value?_eq_some_of_get_eq_ok {s : Setting} {value : Json} (h : c.get s = .ok value) :
    c.value? s = some value := by
  unfold get at h
  split at h
  next found hfound =>
    rw [hfound, Except.ok.inj h]
  · cases h

/-- What is written into a file is written as it is configured, and so comments are asked for. -/
theorem of_options_eq_ok {options : Options} (h : c.options = .ok options) :
    (∃ package, c.value? .packageName = some package ∧ options.packageName = package.display) ∧
      c.value? .optionImportPath = some options.optionImportPath ∧
      ∃ docs, c.value? .docComments = some docs ∧ options.docComments = !docs.isVoid := by
  obtain ⟨kinds, -, h⟩ := exists_of_bind_eq_ok h
  obtain ⟨fields, -, h⟩ := exists_of_bind_eq_ok h
  obtain ⟨package, hpackage, h⟩ := exists_of_bind_eq_ok h
  obtain ⟨path, hpath, h⟩ := exists_of_bind_eq_ok h
  obtain ⟨comment, -, h⟩ := exists_of_bind_eq_ok h
  obtain ⟨limit, -, h⟩ := exists_of_bind_eq_ok h
  obtain ⟨trim, -, h⟩ := exists_of_bind_eq_ok h
  obtain ⟨docs, hdocs, h⟩ := exists_of_bind_eq_ok h
  obtain ⟨lines, -, h⟩ := exists_of_bind_eq_ok h
  obtain ⟨byPath, -, h⟩ := exists_of_bind_eq_ok h
  cases h
  exact ⟨⟨package, value?_eq_some_of_get_eq_ok hpackage, rfl⟩, value?_eq_some_of_get_eq_ok hpath,
    docs, value?_eq_some_of_get_eq_ok hdocs, rfl⟩

/-- The number of workers is a number. -/
theorem WellTyped.exists_workers_eq_ok (h : c.WellTyped) (processors : Nat) :
    ∃ n, c.workers processors = .ok (.int n) := by
  obtain ⟨value, hvalue, n, rfl⟩ := h.exists_get_eq_ok .maxWorkers
  refine ⟨if 0 < n then n else processors, ?_⟩
  rw [workers, h.hiddenWorkers_eq_none, hvalue]
  by_cases hpositive : 0 < n <;>
    simp [bind, Except.bind, pure, Except.pure, isPositive, hpositive]

end Config

end SchemaTypes
