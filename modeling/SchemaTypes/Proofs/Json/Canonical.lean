import SchemaTypes.Proofs.Json.Decoded
import SchemaTypes.Proofs.Json.Strings
import SchemaTypes.Proofs.Number.Text

/-!
# The canonical text of a value

The canonical text of a value tells all of it but the order of object members
(`Json.canonicalText_eq_iff`). It takes more than that to prove it, because a value ends somewhere
in the text of the list or object that it is in: where it ends can be told from the text as well
(`Json.rearranged_of_chars_append_eq`). What follows a value is a comma or a closing bracket
(`Json.Ends`), which no word contains and no value begins with. Strings, lists and objects begin
with characters of their own (`Json.bracket`), and end with the one that closes them.
-/

namespace SchemaTypes

namespace Json

/-! ## Equations

The text of a value, kind by kind. -/

section Equations

variable (canonical : Bool)

theorem chars_null : chars canonical .null = "null".toList := rfl

theorem chars_bool (b : Bool) :
    chars canonical (.bool b) = if b then "true".toList else "false".toList := rfl

theorem chars_int (n : Int) : chars canonical (.int n) = (toString n).toList := rfl

theorem chars_real (x : Number.Binary64) :
    chars canonical (.real x) = (x.text "Infinity" "NaN").toList := rfl

theorem chars_text (s : String) : chars canonical (.text s) = stringText s := rfl

theorem itemChars_eq_map (items : List Json) :
    itemChars canonical items = items.map (chars canonical) := by
  induction items with
  | nil => rfl
  | cons item rest ih => exact congrArg (chars canonical item :: ·) ih

theorem memberChars_eq_map (members : List (String × Json)) :
    memberChars canonical members =
      members.map fun (key, value) ↦ (key, chars canonical value) := by
  induction members with
  | nil => rfl
  | cons m rest ih => exact congrArg ((m.1, chars canonical m.2) :: ·) ih

theorem chars_members (members : List (String × Json)) :
    chars true (.object members) =
      '{' :: (commaSeparated ((Text.sortByName (members.map fun (key, value) ↦
        (key, chars true value))).map fun (key, value) ↦ stringText key ++ ':' :: ' ' :: value) ++
        ['}']) := by
  rw [← memberChars_eq_map]
  rfl

end Equations

/-- Text of a member of an object. -/
def memberText (m : String × Json) : List Char := stringText m.1 ++ ':' :: ' ' :: m.2.chars true

theorem chars_list (items : List Json) :
    chars true (.list items) = '[' :: (commaSeparated (items.map (chars true)) ++ [']']) := by
  rw [← itemChars_eq_map]
  rfl

/-! ## Where a text ends -/

/-- A value ends here: the text is over or goes on with what can follow a value. -/
def Ends (rest : List Char) : Prop := ∀ c ∈ rest.head?, c ∈ [',', ']', '}']

theorem ends_nil : Ends [] := fun c hc ↦ by cases hc

theorem ends_cons {c : Char} (hc : c ∈ [',', ']', '}']) (rest : List Char) : Ends (c :: rest) := by
  intro d hd
  cases hd
  exact hc

/-- A value may begin here. -/
def Begins (cs : List Char) : Prop := ∃ c more, cs = c :: more ∧ c ∉ [',', ']', '}']

/-- A word has none of the characters that a value can begin or be followed with. -/
def IsWord (cs : List Char) : Prop := ∀ c ∈ cs, c ∉ [',', ']', '}'] ∧ c ∉ ['"', '[', '{']

/-- Where a word ends can be told from what follows. -/
theorem eq_of_word_append_eq {xs ys a b : List Char} (hxs : IsWord xs) (hys : IsWord ys)
    (ha : Ends a) (hb : Ends b) (h : xs ++ a = ys ++ b) : xs = ys ∧ a = b := by
  rcases List.append_eq_append_iff.mp h with ⟨cs, rfl, rfl⟩ | ⟨cs, rfl, rfl⟩
  · cases cs with
    | nil => exact ⟨(List.append_nil xs).symm, rfl⟩
    | cons c more => exact absurd (ha c rfl) (hys c (by simp)).1
  · cases cs with
    | nil => exact ⟨List.append_nil ys, rfl⟩
    | cons c more => exact absurd (hb c rfl) (hxs c (by simp)).1

/-! ## Lists -/

theorem commaSeparated_cons (text : List Char) (texts : List (List Char)) :
    commaSeparated (text :: texts) = text ++ texts.flatMap fun t ↦ ',' :: ' ' :: t := by
  induction texts generalizing text with
  | nil => simp [commaSeparated]
  | cons t rest ih =>
    rw [List.flatMap_cons, List.cons_append, List.cons_append, ← ih t]
    simp [commaSeparated, List.intercalate]

section Elements

variable {α β : Type} {R : α → β → Prop} {xs : List α} {ys : List β} {f : α → List Char}
  {g : β → List Char} {close : Char} {a b : List Char} (hclose : close ∈ [']', '}'])
  (h : ∀ x ∈ xs, ∀ y ∈ ys, ∀ a b, Ends a → Ends b → f x ++ a = g y ++ b → R x y ∧ a = b)

include hclose h

theorem forall₂_of_flatMap_append_eq
    (heq : (xs.map f).flatMap (fun t ↦ ',' :: ' ' :: t) ++ close :: a =
      (ys.map g).flatMap (fun t ↦ ',' :: ' ' :: t) ++ close :: b) :
    List.Forall₂ R xs ys ∧ a = b := by
  have hcomma : ',' ≠ close := by rintro rfl; revert hclose; decide
  have hends : ∀ (rest : List (List Char)) (c : List Char),
      Ends (rest.flatMap (fun t ↦ ',' :: ' ' :: t) ++ close :: c) := by
    intro rest c
    cases rest with
    | nil => exact ends_cons (List.mem_cons_of_mem _ hclose) c
    | cons t more => exact ends_cons (by simp) _
  induction xs generalizing ys with
  | nil =>
    cases ys with
    | nil => exact ⟨.nil, (List.cons.inj heq).2⟩
    | cons y ys => exact absurd (List.cons.inj heq).1.symm hcomma
  | cons x xs ih =>
    cases ys with
    | nil => exact absurd (List.cons.inj heq).1 hcomma
    | cons y ys =>
      simp only [List.map_cons, List.flatMap_cons, List.cons_append, List.append_assoc] at heq
      obtain ⟨hxy, hrest⟩ := h x List.mem_cons_self y List.mem_cons_self _ _ (hends _ a)
        (hends _ b) (List.cons.inj (List.cons.inj heq).2).2
      obtain ⟨hmore, hab⟩ := ih (fun x hx y hy ↦
        h x (List.mem_cons_of_mem _ hx) y (List.mem_cons_of_mem _ hy)) hrest
      exact ⟨.cons hxy hmore, hab⟩

/-- **Where the elements of a list end can be told from its text**, if it can of each element. -/
theorem forall₂_of_commaSeparated_append_eq (hf : ∀ x ∈ xs, Begins (f x))
    (hg : ∀ y ∈ ys, Begins (g y))
    (heq : commaSeparated (xs.map f) ++ close :: a = commaSeparated (ys.map g) ++ close :: b) :
    List.Forall₂ R xs ys ∧ a = b := by
  have hempty : ∀ cs rest c : List Char, Begins cs → cs ++ rest ≠ close :: c := by
    rintro _ rest c ⟨first, more, rfl, hfirst⟩ h
    exact hfirst (List.mem_cons_of_mem _ ((List.cons.inj h).1 ▸ hclose))
  cases xs with
  | nil =>
    cases ys with
    | nil => exact ⟨.nil, (List.cons.inj heq).2⟩
    | cons y ys =>
      rw [List.map_cons, commaSeparated_cons, List.append_assoc] at heq
      exact absurd heq.symm (hempty _ _ a (hg y List.mem_cons_self))
  | cons x xs =>
    cases ys with
    | nil =>
      rw [List.map_cons, commaSeparated_cons, List.append_assoc] at heq
      exact absurd heq (hempty _ _ b (hf x List.mem_cons_self))
    | cons y ys =>
      refine forall₂_of_flatMap_append_eq hclose h ?_
      simpa [commaSeparated_cons] using heq

end Elements

/-! ## Words -/

/-- A value that is written as a single word. -/
def isSimple : Json → Bool
  | text _ | list _ | object _ => false
  | _ => true

theorem not_mem_of_isDigit {c : Char} (h : c.isDigit = true) :
    c ∉ [',', ']', '}'] ∧ c ∉ ['"', '[', '{'] := by
  simp only [List.mem_cons, List.not_mem_nil, or_false, not_or]
  refine ⟨⟨?_, ?_, ?_⟩, ?_, ?_, ?_⟩
  all_goals
    rintro rfl
    cases h

open Number in
/-- An integer is written as its digits, behind a sign if it is negative. -/
theorem toString_int_cases (n : Int) :
    (∃ m : Nat, n = m ∧ (toString n).toList = decimalDigits m) ∨
      ∃ m : Nat, n = -m ∧ (toString n).toList = '-' :: decimalDigits m := by
  cases n with
  | ofNat m => exact .inl ⟨m, rfl, rfl⟩
  | negSucc m =>
    refine .inr ⟨m + 1, Int.negSucc_eq m, ?_⟩
    change ("-" ++ toString (m + 1)).toList = _
    rw [String.toList_append]
    rfl

/-- The characters of an integer. -/
theorem isDigit_of_mem_toString {n : Int} {c : Char} (h : c ∈ (toString n).toList) :
    c.isDigit = true ∨ c = '-' := by
  obtain ⟨m, -, hm⟩ | ⟨m, -, hm⟩ := toString_int_cases n
  · exact .inl (Number.isDigits_decimalDigits m c (hm ▸ h))
  · rw [hm] at h
    rcases List.mem_cons.mp h with h | h
    · exact .inr h
    · exact .inl (Number.isDigits_decimalDigits m c h)

theorem toString_int_ne_nil (n : Int) : (toString n).toList ≠ [] := by
  obtain ⟨m, -, hm⟩ | ⟨m, -, hm⟩ := toString_int_cases n
  · rw [hm]
    exact Number.decimalDigits_ne_nil m
  · rw [hm]
    exact List.cons_ne_nil _ _

theorem eq_of_toString_eq {n k : Int} (h : (toString n).toList = (toString k).toList) : n = k := by
  have hinj : ∀ {m l : Nat}, Number.decimalDigits m = Number.decimalDigits l → m = l := by
    intro m l hml
    rw [← Number.digitsValue_decimalDigits m, hml, Number.digitsValue_decimalDigits]
  have hsign : ∀ m l : Nat, Number.decimalDigits m ≠ '-' :: Number.decimalDigits l := by
    intro m l hml
    have hdigit := Number.isDigits_decimalDigits m '-' (hml ▸ List.mem_cons_self)
    cases hdigit
  obtain ⟨m, rfl, hm⟩ | ⟨m, rfl, hm⟩ := toString_int_cases n <;>
    obtain ⟨l, rfl, hl⟩ | ⟨l, rfl, hl⟩ := toString_int_cases k <;> rw [hm, hl] at h
  · rw [hinj h]
  · exact absurd h (hsign m l)
  · exact absurd h.symm (hsign l m)
  · rw [hinj (List.cons.inj h).2]

theorem isWord_chars {value : Json} (h : value.isSimple = true) : IsWord (value.chars true) := by
  cases value with
  | null => simp [chars_null, IsWord]
  | bool b => cases b <;> simp [chars_bool, IsWord]
  | int n =>
    rw [chars_int]
    intro c hc
    rcases isDigit_of_mem_toString hc with hdigit | rfl
    · exact not_mem_of_isDigit hdigit
    · simp
  | real x =>
    rw [chars_real]
    intro c hc
    rcases Number.Binary64.mem_text_cases hc with hdigit | hc
    · exact not_mem_of_isDigit hdigit
    · have hall : ∀ c ∈ ".e+-InfinityNaN".toList, c ∉ [',', ']', '}'] ∧ c ∉ ['"', '[', '{'] := by
        simp
      exact hall c hc
  | _ => cases h

/-- The first letter tells a number from the other words. -/
theorem exists_chars_eq_cons {value : Json} (h : value.isSimple = true) :
    ∃ c more, value.chars true = c :: more ∧
      (c ∈ ['n', 't', 'f'] ↔ value = .null ∨ ∃ b, value = .bool b) := by
  have hdigit : ∀ {c : Char}, c.isDigit = true → c ∉ ['n', 't', 'f'] := by
    intro c hc
    simp only [List.mem_cons, List.not_mem_nil, or_false, not_or]
    refine ⟨?_, ?_, ?_⟩
    all_goals
      rintro rfl
      cases hc
  cases value with
  | null => exact ⟨'n', _, rfl, by simp⟩
  | bool b =>
    cases b with
    | false => exact ⟨'f', _, rfl, by simp⟩
    | true => exact ⟨'t', _, rfl, by simp⟩
  | int n =>
    obtain ⟨c, more, hc⟩ := List.exists_cons_of_ne_nil (toString_int_ne_nil n)
    refine ⟨c, more, hc, ?_⟩
    rcases isDigit_of_mem_toString (hc ▸ List.mem_cons_self) with h | rfl
    · simp [hdigit h]
    · simp
  | real x =>
    obtain ⟨c, more, hc, hcases⟩ := x.exists_text_eq_cons
    refine ⟨c, more, hc, ?_⟩
    rcases hcases with h | h
    · simp [hdigit h]
    · have hall : ∀ c ∈ ['-', 'I', 'N'], c ∉ ['n', 't', 'f'] := by simp
      simp [hall c h]
  | _ => cases h

/-- Simple values with one text are equal. -/
theorem rearranged_of_isSimple {value other : Json} (hvalue : value.isSimple = true)
    (hother : other.isSimple = true) (hdecoded : value.Decoded) (hdecoded' : other.Decoded)
    (h : value.chars true = other.chars true) : Rearranged value other := by
  obtain ⟨c, more, hc, hkind⟩ := exists_chars_eq_cons hvalue
  obtain ⟨d, rest, hd, hkind'⟩ := exists_chars_eq_cons hother
  have hfirst : c = d := (List.cons.inj (hc.symm.trans (h.trans hd))).1
  have hsame : (value = .null ∨ ∃ b, value = .bool b) ↔ (other = .null ∨ ∃ b, other = .bool b) := by
    rw [← hkind, ← hkind', hfirst]
  have hmark : ∀ (n : Int) (x : Number.Binary64), chars true (.int n) ≠ chars true (.real x) := by
    intro n x heq
    rw [chars_int, chars_real] at heq
    obtain ⟨e, he, hdigit, hsign⟩ := x.exists_mark
    rcases isDigit_of_mem_toString (heq ▸ he) with h | h
    · rw [hdigit] at h
      cases h
    · exact hsign h
  cases hdecoded with
  | null =>
    obtain rfl | ⟨b, rfl⟩ := hsame.mp (.inl rfl)
    · exact .null
    · cases b <;> simp [chars_null, chars_bool] at h
  | bool b =>
    obtain rfl | ⟨b', rfl⟩ := hsame.mp (.inr ⟨b, rfl⟩)
    · cases b <;> simp [chars_null, chars_bool] at h
    · cases b <;> cases b' <;> first | exact .bool _ | simp [chars_bool] at h
  | int n =>
    cases hdecoded' with
    | int m =>
      rw [chars_int, chars_int] at h
      rw [eq_of_toString_eq h]
      exact .int m
    | real => exact absurd h (hmark _ _)
    | null | bool => simp at hsame
    | _ => cases hother
  | real hx =>
    cases hdecoded' with
    | int m => exact absurd h.symm (hmark _ _)
    | real hy =>
      rw [chars_real, chars_real, String.toList_inj] at h
      rw [Number.Binary64.eq_of_text_eq hx hy h]
      exact .real _
    | null | bool => simp at hsame
    | _ => cases hother
  | _ => cases hvalue

/-! ## Values -/

theorem chars_object (members : List (String × Json)) :
    chars true (.object members) =
      '{' :: (commaSeparated ((Text.sortByName members).map memberText) ++ ['}']) := by
  have hsorted : Text.sortByName (members.map fun (key, value) ↦ (key, chars true value)) =
      (Text.sortByName members).map fun (key, value) ↦ (key, chars true value) :=
    sorted_map _ _ members
  rw [chars_members, hsorted, List.map_map]
  rfl

/-- The character that a value begins with, if that tells what kind of value it is. -/
def bracket : Json → Option Char
  | text _ => some '"'
  | list _ => some '['
  | object _ => some '{'
  | _ => none

theorem bracket_eq_none_iff {value : Json} : value.bracket = none ↔ value.isSimple = true := by
  cases value <;> simp [bracket, isSimple]

theorem filter_head?_chars (value : Json) (rest : List Char) :
    (value.chars true ++ rest).head?.filter (fun c ↦ c ∈ ['"', '[', '{']) = value.bracket := by
  by_cases h : value.isSimple = true
  · obtain ⟨c, more, hc, -⟩ := exists_chars_eq_cons h
    have hword := (isWord_chars h c (hc ▸ List.mem_cons_self)).2
    rw [bracket_eq_none_iff.mpr h, hc, List.cons_append, List.head?_cons]
    exact Option.filter_some_neg (by simpa using hword)
  · cases value with
    | text s => rw [chars_text, stringText]; rfl
    | list items => rw [chars_list]; rfl
    | object members => rw [chars_object]; rfl
    | _ => exact absurd rfl h

/-- Values of one text are of one kind. -/
theorem bracket_eq_of_append_eq {value other : Json} {a b : List Char}
    (h : value.chars true ++ a = other.chars true ++ b) : value.bracket = other.bracket := by
  rw [← filter_head?_chars value a, h, filter_head?_chars]

theorem begins_chars (value : Json) : Begins (value.chars true) := by
  by_cases h : value.isSimple = true
  · obtain ⟨c, more, hc, -⟩ := exists_chars_eq_cons h
    exact ⟨c, more, hc, (isWord_chars h c (hc ▸ List.mem_cons_self)).1⟩
  · cases value with
    | text s => exact ⟨'"', _, by rw [chars_text, stringText]; rfl, by simp⟩
    | list items => exact ⟨'[', _, chars_list items, by simp⟩
    | object members => exact ⟨'{', _, chars_object members, by simp⟩
    | _ => exact absurd rfl h

/-- Two objects whose members are alike one by one in some order differ in that order at most. -/
theorem rearranged_of_forall₂ {members others ms ns : List (String × Json)}
    (hnodup : (Entries.names others).Nodup) (hms : ms.Perm members) (hns : ns.Perm others)
    (h : List.Forall₂ (fun m n ↦ m.1 = n.1 ∧ Rearranged m.2 n.2) ms ns) :
    Rearranged (.object members) (.object others) := by
  have hnames : Entries.names ms = Entries.names ns := by
    clear hms hns
    induction h with
    | nil => rfl
    | @cons m n ms ns hmn _ ih =>
      change m.1 :: Entries.names ms = n.1 :: Entries.names ns
      rw [hmn.1, ih]
  refine .object ?_ fun key value other hvalue hother ↦ ?_
  · have hmembers : (Entries.names ms).Perm (Entries.names members) := hms.map Prod.fst
    have hothers : (Entries.names ns).Perm (Entries.names others) := hns.map Prod.fst
    exact hmembers.symm.trans (hnames ▸ hothers)
  · obtain ⟨n, hn, hkey, hlike⟩ : ∃ n ∈ ns, key = n.1 ∧ Rearranged value n.2 := by
      have hvalue := hms.mem_iff.mpr hvalue
      clear hms hns hnames
      induction h with
      | nil => cases hvalue
      | cons hmn _ ih =>
        rcases List.mem_cons.mp hvalue with rfl | hvalue
        · exact ⟨_, List.mem_cons_self, hmn⟩
        · obtain ⟨n, hn, hn'⟩ := ih hvalue
          exact ⟨n, List.mem_cons_of_mem _ hn, hn'⟩
    have hsame : n = (key, other) :=
      List.inj_on_of_nodup_map hnodup (hns.mem_iff.mp hn) hother hkey.symm
    rwa [hsame] at hlike

theorem rearranged_of_isSimple_append_eq {value other : Json} (hsimple : value.isSimple = true)
    (hvalue : value.Decoded) (hother : other.Decoded) {a b : List Char} (ha : Ends a) (hb : Ends b)
    (h : value.chars true ++ a = other.chars true ++ b) : Rearranged value other ∧ a = b := by
  have hsimple' : other.isSimple = true := by
    rw [← bracket_eq_none_iff, ← bracket_eq_of_append_eq h, bracket_eq_none_iff]
    exact hsimple
  obtain ⟨hsame, hab⟩ :=
    eq_of_word_append_eq (isWord_chars hsimple) (isWord_chars hsimple') ha hb h
  exact ⟨rearranged_of_isSimple hsimple hsimple' hvalue hother hsame, hab⟩

/-- **The text of a value is unambiguous**: where it ends can be told from what follows it, and up
to the order of members there is one value that it is the text of. -/
theorem rearranged_of_chars_append_eq {value other : Json} (hvalue : value.Decoded)
    (hother : other.Decoded) {a b : List Char} (ha : Ends a) (hb : Ends b)
    (h : value.chars true ++ a = other.chars true ++ b) : Rearranged value other ∧ a = b := by
  induction hvalue generalizing other a b with
  | null => exact rearranged_of_isSimple_append_eq rfl .null hother ha hb h
  | bool v => exact rearranged_of_isSimple_append_eq rfl (.bool v) hother ha hb h
  | int n => exact rearranged_of_isSimple_append_eq rfl (.int n) hother ha hb h
  | real hx => exact rearranged_of_isSimple_append_eq rfl (.real hx) hother ha hb h
  | text s =>
    cases hother with
    | text t =>
      rw [chars_text, chars_text] at h
      obtain ⟨rfl, hab⟩ := eq_of_stringText_append_eq h
      exact ⟨.text s, hab⟩
    | _ => cases bracket_eq_of_append_eq h
  | @list items hitems ih =>
    cases hother with
    | @list others hothers =>
      have hseparate : ∀ v ∈ items, ∀ w ∈ others, ∀ a b, Ends a → Ends b →
          v.chars true ++ a = w.chars true ++ b → Rearranged v w ∧ a = b :=
        fun v hv w hw a b ha hb h ↦ ih v hv (hothers w hw) ha hb h
      rw [chars_list, chars_list, List.cons_append, List.cons_append, List.append_assoc,
        List.append_assoc] at h
      obtain ⟨hsame, hab⟩ := forall₂_of_commaSeparated_append_eq (by simp) hseparate
        (fun v _ ↦ begins_chars v) (fun w _ ↦ begins_chars w) (List.cons.inj h).2
      exact ⟨Rearranged.list_iff.mpr hsame, hab⟩
    | _ => cases bracket_eq_of_append_eq h
  | @object members hnodup hmembers ih =>
    cases hother with
    | @object others hnodup' hothers =>
      have hseparate : ∀ m ∈ Text.sortByName members, ∀ n ∈ Text.sortByName others, ∀ a b, Ends a →
          Ends b → memberText m ++ a = memberText n ++ b →
            (m.1 = n.1 ∧ Rearranged m.2 n.2) ∧ a = b := by
        intro m hm n hn a b ha hb h
        rw [memberText, memberText, List.append_assoc, List.append_assoc] at h
        obtain ⟨hkey, hrest⟩ := eq_of_stringText_append_eq h
        have hrest : m.2.chars true ++ a = n.2.chars true ++ b :=
          (List.cons.inj (List.cons.inj hrest).2).2
        obtain ⟨hlike, hab⟩ := ih m (Text.mem_sortByName.mp hm)
          (hothers n (Text.mem_sortByName.mp hn)) ha hb hrest
        exact ⟨⟨hkey, hlike⟩, hab⟩
      have hbegins : ∀ m, Begins (memberText m) := fun m ↦
        ⟨'"', _, by rw [memberText, stringText]; rfl, by simp⟩
      rw [chars_object, chars_object, List.cons_append, List.cons_append, List.append_assoc,
        List.append_assoc] at h
      obtain ⟨hsame, hab⟩ := forall₂_of_commaSeparated_append_eq (by simp) hseparate
        (fun m _ ↦ hbegins m) (fun n _ ↦ hbegins n) (List.cons.inj h).2
      exact ⟨rearranged_of_forall₂ hnodup' (Text.sortByName_perm members)
        (Text.sortByName_perm others) hsame, hab⟩
    | _ => cases bracket_eq_of_append_eq h

/-- The order of members leaves no trace in the text of a value. -/
theorem Rearranged.chars_eq {value other : Json} (h : Rearranged value other)
    (hvalue : value.Decoded) (hother : other.Decoded) : value.chars true = other.chars true := by
  induction h with
  | @list items others hlength _ ih =>
    have hitems := decoded_list_iff.mp hvalue
    have hothers := decoded_list_iff.mp hother
    have hsame : items.map (chars true) = others.map (chars true) := by
      rw [← List.forall₂_eq_eq_eq, List.forall₂_map_left_iff, List.forall₂_map_right_iff,
        List.forall₂_iff_zip]
      refine ⟨hlength, fun {v w} hmem ↦ ?_⟩
      exact ih _ hmem (hitems v (List.of_mem_zip hmem).1) (hothers w (List.of_mem_zip hmem).2)
    rw [chars_list, chars_list, hsame]
  | @object members others hnames _ ih =>
    obtain ⟨hnodup, hmembers⟩ := decoded_object_iff.mp hvalue
    obtain ⟨hnodup', hothers⟩ := decoded_object_iff.mp hother
    have htexts : (members.map fun (key, value) ↦ (key, chars true value)).Perm
        (others.map fun (key, value) ↦ (key, chars true value)) := by
      refine Entries.perm_of_lookup_eq ?_ ?_ fun key ↦ ?_
      · rw [Entries.names_map_snd]
        exact hnodup
      · rw [Entries.names_map_snd]
        exact hnodup'
      · rw [Entries.lookup_map_snd, Entries.lookup_map_snd]
        have hsome : (members.lookup key).isSome = (others.lookup key).isSome := by
          rw [Bool.eq_iff_iff, Entries.isSome_lookup_iff, Entries.isSome_lookup_iff,
            hnames.mem_iff]
        cases hm : members.lookup key with
        | none =>
          cases hw : others.lookup key with
          | none => rfl
          | some w => rw [hm, hw] at hsome; cases hsome
        | some v =>
          cases hw : others.lookup key with
          | none => rw [hm, hw] at hsome; cases hsome
          | some w =>
            have hmem := Entries.mem_of_lookup hm
            have hmem' := Entries.mem_of_lookup hw
            rw [Option.map_some, Option.map_some,
              ih key v w hmem hmem' (hmembers _ hmem) (hothers _ hmem')]
    rw [chars_members, chars_members, Text.sortByName_eq_of_perm htexts (by
      rw [Entries.names_map_snd]
      exact hnodup)]
  | _ => rfl

/-- **The canonical text identifies a value** up to the order of members. -/
theorem canonicalText_eq_iff {value other : Json} (hvalue : value.Decoded)
    (hother : other.Decoded) :
    value.canonicalText = other.canonicalText ↔ Rearranged value other := by
  constructor
  · intro h
    have hchars : value.chars true ++ [] = other.chars true ++ [] := by
      rw [List.append_nil, List.append_nil]
      exact String.ofList_injective h
    exact (rearranged_of_chars_append_eq hvalue hother ends_nil ends_nil hchars).1
  · intro h
    rw [canonicalText, canonicalText, h.chars_eq hvalue hother]

end Json

end SchemaTypes
