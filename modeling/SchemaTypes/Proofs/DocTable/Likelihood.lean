import Mathlib.Algebra.BigOperators.Group.List.Lemmas
import Mathlib.Algebra.Order.BigOperators.Group.List
import Mathlib.Algebra.Order.Ring.Rat
import Mathlib.Data.List.Perm.Subperm
import Mathlib.Tactic.Linarith
import Mathlib.Tactic.Positivity
import Mathlib.Tactic.Ring
import SchemaTypes.DocTable.Likelihood
import SchemaTypes.Proofs.Text.EditDistance
import SchemaTypes.Proofs.Text.Order

/-!
# Bounds of the likelihood

Computed exactly, the likelihood that two tables describe the same object is a number from zero to
thirteen: names count up to four, and fields up to nine for each field of the smaller table that has
a partner of the same name in the other one (`exact_likelihood`).

The sum goes over the fields of one table, and the partner of a field is the last one of its name in
the other table. That no more fields have partners than either table has fields is therefore a
matter of counting names: those of the fields that have partners are distinct, and all of them are
names of the other table. Where the names of both tables are distinct the sum goes over all pairs of
fields, since fields of different names add nothing, and pairs have no direction.

Scores that are stored are rounded after each operation, so that none of this holds of them to the
last digit.
-/

namespace SchemaTypes

namespace Entries

variable {α : Type} {name : String}

theorem mem_names_setAll {old entries : List (String × α)} :
    name ∈ names (setAll old entries) ↔ name ∈ names old ∨ name ∈ names entries := by
  induction entries generalizing old with
  | nil => exact (or_iff_left List.not_mem_nil).symm
  | cons e rest ih =>
    have hset : name ∈ names (set e.1 e.2 old) ↔ name ∈ names old ∨ name = e.1 := by
      rw [names_set]
      split
      · next hold => exact (or_iff_left_of_imp fun h ↦ h ▸ hold).symm
      · rw [List.mem_append, List.mem_singleton]
    rw [setAll, List.foldl_cons, ← setAll, ih, hset, or_assoc]
    exact or_congr_right List.mem_cons.symm

theorem mem_names_ofList {entries : List (String × α)} :
    name ∈ names (ofList entries) ↔ name ∈ names entries :=
  mem_names_setAll.trans (or_iff_right List.not_mem_nil)

end Entries

namespace Likelihood

open Text (editDistanceChars editDistanceChars_comm editDistanceChars_eq_zero_iff
  editDistanceChars_le_max)

/-! ## Texts -/

/-- The share of the longer text that need not be edited. -/
theorem similarity_eq (s t : String) :
    similarity id s t =
      1 - (editDistanceChars (Text.lower s.toList) (Text.lower t.toList) : Rat) /
        (max (Text.lower s.toList).length (Text.lower t.toList).length : Nat) := by
  unfold similarity
  dsimp only [id]
  split
  · next h => rw [h, Nat.cast_zero, div_zero, sub_zero]
  · rfl

theorem similarity_comm (s t : String) : similarity id s t = similarity id t s := by
  rw [similarity_eq, similarity_eq, editDistanceChars_comm, Nat.max_comm]

theorem similarity_le_one (s t : String) : similarity id s t ≤ 1 := by
  rw [similarity_eq]
  exact sub_le_self 1 (by positivity)

theorem similarity_nonneg (s t : String) : 0 ≤ similarity id s t := by
  rw [similarity_eq, sub_nonneg]
  exact div_le_one_of_le₀ (Nat.cast_le.mpr (editDistanceChars_le_max _ _)) (Nat.cast_nonneg _)

/-- Only texts that are equal but for the case of their letters have nothing to edit. -/
theorem similarity_eq_one_iff {s t : String} :
    similarity id s t = 1 ↔ Text.lower s.toList = Text.lower t.toList := by
  rw [similarity_eq, sub_eq_self, div_eq_zero_iff, Nat.cast_eq_zero, Nat.cast_eq_zero,
    editDistanceChars_eq_zero_iff, or_iff_left_of_imp]
  intro h
  have hlengths := Nat.max_eq_zero_iff.mp h
  rw [List.eq_nil_of_length_eq_zero hlengths.1, List.eq_nil_of_length_eq_zero hlengths.2]

/-! ## Fields -/

variable {f g : FieldInfo} {a b : FieldTable}

theorem field_of_eq (h : f.name = g.name) :
    field id f g = 1 / 2 + similarity id f.type g.type / 2 := by
  rw [field, if_pos h]
  rfl

theorem field_of_ne (h : f.name ≠ g.name) : field id f g = 0 := if_neg h

theorem field_comm (f g : FieldInfo) : field id f g = field id g f := by
  by_cases h : f.name = g.name
  · rw [field_of_eq h, field_of_eq h.symm, similarity_comm]
  · rw [field_of_ne h, field_of_ne (Ne.symm h)]

theorem field_nonneg (f g : FieldInfo) : 0 ≤ field id f g := by
  by_cases h : f.name = g.name
  · have := similarity_nonneg f.type g.type
    rw [field_of_eq h]
    positivity
  · rw [field_of_ne h]

theorem field_le_one (f g : FieldInfo) : field id f g ≤ 1 := by
  by_cases h : f.name = g.name
  · have := similarity_le_one f.type g.type
    rw [field_of_eq h]
    linarith
  · rw [field_of_ne h]
    exact zero_le_one

/-- Whether two fields have one name, and one type but for the case of its letters. -/
def SameField (f g : FieldInfo) : Prop :=
  f.name = g.name ∧ Text.lower f.type.toList = Text.lower g.type.toList

/-- Only fields that are the same are as likely as can be. -/
theorem sameField_of_field_eq_one (h : field id f g = 1) : SameField f g := by
  by_cases hname : f.name = g.name
  · rw [field_of_eq hname] at h
    exact ⟨hname, similarity_eq_one_iff.mp (by linarith)⟩
  · rw [field_of_ne hname] at h
    exact absurd h zero_ne_one

/-! ## Partners -/

/-- The field that a field is compared with: the last one of its name. -/
def partner? (b : FieldTable) (f : FieldInfo) : Option FieldInfo :=
  (fieldMap b.fields).lookup f.name

/-- The fields of one table that are compared with one of the other. -/
def matched (a b : FieldTable) : List FieldInfo := a.fields.filter fun f ↦ (partner? b f).isSome

/-- The names of the fields of a table. -/
def fieldNames (a : FieldTable) : List String := a.fields.map FieldInfo.name

theorem of_partner?_eq_some (h : partner? b f = some g) : g ∈ b.fields ∧ g.name = f.name := by
  obtain ⟨found, hfound, heq⟩ := List.mem_map.mp (Entries.mem_of_lookup_ofList h)
  obtain ⟨hname, rfl⟩ := Prod.mk.inj heq
  exact ⟨hfound, hname⟩

theorem isSome_partner?_iff : (partner? b f).isSome ↔ f.name ∈ fieldNames b := by
  rw [partner?, fieldMap, Entries.isSome_lookup_iff, Entries.mem_names_ofList, Entries.names,
    List.map_map]
  rfl

/-- Where names are distinct, the partner of a field is the one field of its name. -/
theorem partner?_eq_some_iff (hnames : (fieldNames b).Nodup) :
    partner? b f = some g ↔ g ∈ b.fields ∧ g.name = f.name := by
  refine ⟨of_partner?_eq_some, fun ⟨hg, hname⟩ ↦ ?_⟩
  have hsome : (partner? b f).isSome := isSome_partner?_iff.mpr (hname ▸ List.mem_map_of_mem hg)
  obtain ⟨found, hfound⟩ := Option.isSome_iff_exists.mp hsome
  obtain ⟨hmem, hfoundName⟩ := of_partner?_eq_some hfound
  rw [hfound, List.inj_on_of_nodup_map hnames hmem hg (hfoundName.trans hname.symm)]

theorem length_partners (a b : FieldTable) : (partners id a b).length = (matched a b).length := by
  rw [partners, matched, List.length_filterMap_eq_countP, List.countP_eq_length_filter]
  simp only [Option.isSome_map]
  rfl

theorem exists_of_mem_partners {x : Rat} (h : x ∈ partners id a b) :
    ∃ f ∈ a.fields, ∃ g, partner? b f = some g ∧ x = field id f g := by
  obtain ⟨f, hf, hx⟩ := List.mem_filterMap.mp h
  obtain ⟨g, hg, rfl⟩ := Option.map_eq_some_iff.mp hx
  exact ⟨f, hf, g, hg, rfl⟩

theorem mem_partners (hf : f ∈ a.fields) (hg : partner? b f = some g) :
    field id f g ∈ partners id a b :=
  List.mem_filterMap.mpr ⟨f, hf, Option.map_eq_some_iff.mpr ⟨g, hg, rfl⟩⟩

/-! ## Counting names -/

/-- The names of the fields that have partners are names of the other table, each once. -/
theorem names_matched_subperm (hnames : (fieldNames a).Nodup) :
    ((matched a b).map FieldInfo.name).Subperm (fieldNames b) := by
  have hnodup : ((matched a b).map FieldInfo.name).Nodup :=
    hnames.sublist (List.filter_sublist.map _)
  refine hnodup.subperm fun name hname ↦ ?_
  obtain ⟨f, hf, rfl⟩ := List.mem_map.mp hname
  exact isSome_partner?_iff.mp (List.mem_filter.mp hf).2

/-- No more fields have partners than either table has fields. -/
theorem length_matched_le (hnames : (fieldNames a).Nodup) :
    (matched a b).length ≤ min a.fields.length b.fields.length := by
  refine le_min (List.length_filter_le _ _) ?_
  simpa [fieldNames] using (names_matched_subperm (b := b) hnames).length_le

/-- Where as many fields have partners as a table has, and all pairs are the same field, every field
of one table is the same as one of the other. -/
theorem sameField_of_length_eq (hnames : (fieldNames a).Nodup)
    (hlength : (matched a b).length = min a.fields.length b.fields.length)
    (hsame : ∀ f ∈ a.fields, ∀ g, partner? b f = some g → SameField f g) :
    (∀ f ∈ a.fields, ∃ g ∈ b.fields, SameField f g) ∨
      ∀ g ∈ b.fields, ∃ f ∈ a.fields, SameField f g := by
  rcases min_choice a.fields.length b.fields.length with hmin | hmin
  · -- All fields of the first table have partners.
    refine .inl fun f hf ↦ ?_
    have hall := List.length_filter_eq_length_iff.mp (hlength.trans hmin)
    obtain ⟨g, hg⟩ := Option.isSome_iff_exists.mp (hall f hf)
    exact ⟨g, (of_partner?_eq_some hg).1, hsame f hf g hg⟩
  · -- The names of the second table are those of the fields with partners, so that each is there
    -- once and its field is a partner.
    refine .inr fun g hg ↦ ?_
    have hperm : ((matched a b).map FieldInfo.name).Perm (fieldNames b) :=
      (names_matched_subperm hnames).perm_of_length_le (by simp [fieldNames, hlength, hmin])
    have hnodup : (fieldNames b).Nodup :=
      hperm.nodup_iff.mp (hnames.sublist (List.filter_sublist.map _))
    obtain ⟨f, hf, hname⟩ := List.mem_map.mp (hperm.mem_iff.mpr (List.mem_map_of_mem hg))
    have hfields := (List.mem_filter.mp hf).1
    exact ⟨f, hfields, hsame f hfields g ((partner?_eq_some_iff hnodup).mpr ⟨hg, hname.symm⟩)⟩

/-! ## Sums -/

theorem total_eq_sum (xs : List Rat) : total id xs = xs.sum := by
  rw [total, List.sum_eq_foldl]
  rfl

theorem sum_partners_nonneg (a b : FieldTable) : 0 ≤ (partners id a b).sum := by
  refine List.sum_nonneg fun x hx ↦ ?_
  obtain ⟨f, -, g, -, rfl⟩ := exists_of_mem_partners hx
  exact field_nonneg f g

theorem le_one_of_mem_partners {x : Rat} (h : x ∈ partners id a b) : x ≤ 1 := by
  obtain ⟨f, -, g, -, rfl⟩ := exists_of_mem_partners h
  exact field_le_one f g

theorem sum_le_length {xs : List Rat} (h : ∀ x ∈ xs, x ≤ 1) : xs.sum ≤ xs.length := by
  simpa using List.sum_le_card_nsmul xs 1 h

/-- Numbers of which none is greater than one have their number as sum only if all are one. -/
theorem eq_one_of_length_le_sum {xs : List Rat} (h : ∀ x ∈ xs, x ≤ 1)
    (hsum : (xs.length : Rat) ≤ xs.sum) : ∀ x ∈ xs, x = 1 := by
  induction xs with
  | nil => exact List.forall_mem_nil _
  | cons x rest ih =>
    obtain ⟨hx, hrest⟩ := List.forall_mem_cons.mp h
    rw [List.length_cons, List.sum_cons, Nat.cast_succ] at hsum
    have hle := sum_le_length hrest
    exact List.forall_mem_cons.mpr ⟨by linarith, ih hrest (by linarith)⟩

theorem sum_partners_le (hnames : (fieldNames a).Nodup) :
    (partners id a b).sum ≤ (min a.fields.length b.fields.length : Nat) := by
  refine (sum_le_length fun x ↦ le_one_of_mem_partners).trans (Nat.cast_le.mpr ?_)
  rw [length_partners]
  exact length_matched_le hnames

/-- Sums over pairs can be taken in either direction. -/
theorem sum_sum_comm {α β : Type} (xs : List α) (ys : List β) (w : α → β → Rat) :
    (xs.map fun x ↦ (ys.map (w x)).sum).sum = (ys.map fun y ↦ (xs.map fun x ↦ w x y).sum).sum := by
  induction xs with
  | nil => simp
  | cons x rest ih =>
    rw [List.map_cons, List.sum_cons, ih, ← List.sum_map_add]
    rfl

/-- Where names are distinct, a field is compared with its partner if it is with all fields. -/
theorem sum_map_field (hnames : (fieldNames b).Nodup) (f : FieldInfo) :
    (b.fields.map (field id f)).sum = ((partner? b f).map (field id f)).getD 0 := by
  cases hp : partner? b f with
  | none =>
    refine List.sum_eq_zero fun x hx ↦ ?_
    obtain ⟨g, hg, rfl⟩ := List.mem_map.mp hx
    refine field_of_ne fun hname ↦ ?_
    have hmem : g.name ∈ fieldNames b := List.mem_map_of_mem hg
    rw [← hname, ← isSome_partner?_iff, hp] at hmem
    cases hmem
  | some g =>
    classical
    obtain ⟨hg, hname⟩ := of_partner?_eq_some hp
    rw [List.sum_map_eq_nsmul_single g, List.count_eq_one_of_mem (.of_map _ hnames) hg, one_nsmul,
      Option.map_some, Option.getD_some]
    intro other hother hmem
    refine field_of_ne fun hsame ↦ hother ?_
    exact List.inj_on_of_nodup_map hnames hmem hg (hsame.symm.trans hname.symm)

theorem sum_filterMap {α : Type} (w : α → Option Rat) (xs : List α) :
    (xs.filterMap w).sum = (xs.map fun x ↦ (w x).getD 0).sum := by
  induction xs with
  | nil => rfl
  | cons x rest ih => cases h : w x <;> simp [h, ih]

/-- Where names are distinct, the sum goes over all pairs of fields. -/
theorem sum_partners_eq (hnames : (fieldNames b).Nodup) :
    (partners id a b).sum = (a.fields.map fun f ↦ (b.fields.map (field id f)).sum).sum := by
  rw [partners, sum_filterMap]
  exact congrArg List.sum (List.map_congr_left fun f _ ↦ (sum_map_field hnames f).symm)

theorem sum_partners_comm (ha : (fieldNames a).Nodup) (hb : (fieldNames b).Nodup) :
    (partners id a b).sum = (partners id b a).sum := by
  rw [sum_partners_eq hb, sum_partners_eq ha, sum_sum_comm]
  simp only [field_comm]

/-! ## Tables -/

/-- The share of the name and that of the fields, of which there is none between tables without
fields. -/
theorem object_eq (a b : FieldTable) :
    object id a b = similarity id a.name b.name * 4 +
      (partners id a b).sum / (min a.fields.length b.fields.length : Nat) * 9 := by
  unfold object
  dsimp only [id]
  split
  · next h =>
    rcases h with hnone | hempty
    · rw [hnone, Nat.cast_zero, div_zero, zero_mul, add_zero]
    · rw [List.isEmpty_iff.mp hempty, List.sum_nil, zero_div, zero_mul, add_zero]
  · rw [total_eq_sum]

theorem fields_nonneg (a b : FieldTable) :
    0 ≤ (partners id a b).sum / (min a.fields.length b.fields.length : Nat) :=
  div_nonneg (sum_partners_nonneg a b) (Nat.cast_nonneg _)

theorem fields_le_one (hnames : (fieldNames a).Nodup) :
    (partners id a b).sum / (min a.fields.length b.fields.length : Nat) ≤ 1 :=
  div_le_one_of_le₀ (sum_partners_le hnames) (Nat.cast_nonneg _)

/-- The fields count in full only if every field of one table is the same as one of the other. -/
theorem sameField_of_fields_eq_one (hnames : (fieldNames a).Nodup)
    (h : (partners id a b).sum / (min a.fields.length b.fields.length : Nat) = 1) :
    (∀ f ∈ a.fields, ∃ g ∈ b.fields, SameField f g) ∨
      ∀ g ∈ b.fields, ∃ f ∈ a.fields, SameField f g := by
  have hsum : (partners id a b).sum = (min a.fields.length b.fields.length : Nat) :=
    eq_of_div_eq_one h
  have hcount := length_matched_le (b := b) hnames
  have hle : (partners id a b).sum ≤ (partners id a b).length :=
    sum_le_length fun x ↦ le_one_of_mem_partners
  rw [hsum, Nat.cast_le, length_partners] at hle
  have hlength := le_antisymm hcount hle
  have hones := eq_one_of_length_le_sum (fun x hx ↦ le_one_of_mem_partners hx)
    (by rw [length_partners, hsum, hlength])
  exact sameField_of_length_eq hnames hlength fun f hf g hg ↦
    sameField_of_field_eq_one (hones _ (mem_partners hf hg))

/-- **The likelihood is bounded and has no direction.** -/
theorem exact_likelihood (hnames : (a.fields.map FieldInfo.name).Nodup) :
    0 ≤ object id a b ∧ object id a b ≤ 13 ∧
      (object id a b = 13 →
        Text.lower a.name.toList = Text.lower b.name.toList ∧
          ((∀ f ∈ a.fields, ∃ g ∈ b.fields, SameField f g) ∨
            ∀ g ∈ b.fields, ∃ f ∈ a.fields, SameField f g)) ∧
      ((b.fields.map FieldInfo.name).Nodup → object id a b = object id b a) := by
  have hname := similarity_le_one a.name b.name
  have hfields := fields_le_one (b := b) hnames
  refine ⟨?_, ?_, fun h ↦ ?_, fun hb ↦ ?_⟩
  · have := similarity_nonneg a.name b.name
    have := fields_nonneg a b
    rw [object_eq]
    positivity
  · rw [object_eq]
    linarith
  · rw [object_eq] at h
    exact ⟨similarity_eq_one_iff.mp (by linarith), sameField_of_fields_eq_one hnames (by linarith)⟩
  · rw [object_eq, object_eq, similarity_comm, sum_partners_comm hnames hb, Nat.min_comm]

/-- An object with two fields. -/
def guildObject : FieldTable :=
  ⟨"guild", [⟨"id", "snowflake", .text "", false, false⟩,
    ⟨"name", "string", .text "", false, false⟩]⟩

/-- A table for that object in which one field stands twice, first with another type. -/
def guildTable : FieldTable :=
  ⟨"Guild", [⟨"name", "integer", .text "", false, false⟩,
    ⟨"id", "Snowflake", .text "", true, false⟩,
    ⟨"name", "String", .text "the name", false, true⟩]⟩

/-- A table that shares one field with that object, of a type with one letter more. -/
def userTable : FieldTable :=
  ⟨"User", [⟨"name", "strings", .text "", false, false⟩,
    ⟨"email", "string", .text "", true, false⟩]⟩

theorem exact_likelihood_guild :
    (guildObject.fields.map FieldInfo.name).Nodup ∧ object id guildObject guildTable = 13 ∧
      (Text.lower guildObject.name.toList = Text.lower guildTable.name.toList ∧
        ((∀ f ∈ guildObject.fields, ∃ g ∈ guildTable.fields, SameField f g) ∨
          ∀ g ∈ guildTable.fields, ∃ f ∈ guildObject.fields, SameField f g)) ∧
      (userTable.fields.map FieldInfo.name).Nodup ∧ 0 ≤ object id guildObject userTable ∧
      object id guildObject userTable ≤ 13 ∧
      object id guildObject userTable = object id userTable guildObject := by
  have hnames : (guildObject.fields.map FieldInfo.name).Nodup := by decide
  have hfull : object id guildObject guildTable = 13 := by decide +kernel
  have huser : (userTable.fields.map FieldInfo.name).Nodup := by decide
  obtain ⟨-, -, hsame, -⟩ := exact_likelihood (b := guildTable) hnames
  obtain ⟨hnonneg, hle, -, hcomm⟩ := exact_likelihood (b := userTable) hnames
  exact ⟨hnames, hfull, hsame hfull, huser, hnonneg, hle, hcomm huser⟩

/- A name that stands twice in the first table is counted twice. -/
example : 13 < object id guildTable guildObject := by decide +kernel

end Likelihood

end SchemaTypes
