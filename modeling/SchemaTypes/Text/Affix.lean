/-!
# Prefixes and suffixes of a text

Removal of a fixed beginning or end, and the lift of functions on characters to texts.
-/

namespace SchemaTypes.Text

/-- The text behind a given beginning, or the whole text if it begins otherwise. -/
def dropBeginning (beginning cs : List Char) : List Char :=
  if beginning.isPrefixOf cs then cs.drop beginning.length else cs

/-- The text before a given end, or the whole text if it ends otherwise. -/
def dropEnding (ending cs : List Char) : List Char :=
  if ending.isSuffixOf cs then cs.take (cs.length - ending.length) else cs

/-- A function on characters, applied to a text. -/
def onChars (f : List Char → List Char) (s : String) : String := String.ofList (f s.toList)

@[simp] theorem toList_onChars (f : List Char → List Char) (s : String) :
    (onChars f s).toList = f s.toList := by
  simp [onChars]

@[simp] theorem dropBeginning_append (beginning cs : List Char) :
    dropBeginning beginning (beginning ++ cs) = cs := by
  simp [dropBeginning]

@[simp] theorem dropEnding_append (cs ending : List Char) :
    dropEnding ending (cs ++ ending) = cs := by
  simp [dropEnding]

/-- Whether a text stands somewhere within another one. -/
def isWithin (sought : List Char) : List Char → Bool
  | [] => sought.isEmpty
  | c :: rest => sought.isPrefixOf (c :: rest) || isWithin sought rest

theorem isWithin_iff {sought cs : List Char} : isWithin sought cs ↔ sought <:+: cs := by
  induction cs with
  | nil => simp [isWithin]
  | cons c rest ih => simp [isWithin, ih, List.infix_cons_iff]

/-- Whether a text begins with another one. -/
def beginsWith (s beginning : String) : Bool := beginning.toList.isPrefixOf s.toList

/-- Whether a text ends with another one. -/
def endsWith (s ending : String) : Bool := ending.toList.isSuffixOf s.toList

/-- A text without a given beginning. -/
def removeBeginning (s beginning : String) : String := onChars (dropBeginning beginning.toList) s

/-- A text without a given end. -/
def removeEnding (s ending : String) : String := onChars (dropEnding ending.toList) s

theorem removeEnding_append (s ending : String) : removeEnding (s ++ ending) ending = s := by
  rw [← String.toList_inj, removeEnding, toList_onChars, String.toList_append, dropEnding_append]

/-- A text that ends with another one is what stands before that, and then that. -/
theorem removeEnding_append_of_endsWith {s ending : String} (h : endsWith s ending = true) :
    removeEnding s ending ++ ending = s := by
  obtain ⟨cs, hcs⟩ := List.isSuffixOf_iff_suffix.mp h
  rw [← String.toList_inj, String.toList_append, removeEnding, toList_onChars, ← hcs,
    dropEnding_append]

theorem removeEnding_of_not_endsWith {s ending : String} (h : endsWith s ending = false) :
    removeEnding s ending = s := by
  rw [← String.toList_inj, removeEnding, toList_onChars, dropEnding, if_neg]
  exact Bool.eq_false_iff.mp h

/-- A text from which an end was removed is the rest with that end. -/
theorem removeEnding_append_of_ne {s ending : String} (h : removeEnding s ending ≠ s) :
    removeEnding s ending ++ ending = s := by
  by_cases hends : endsWith s ending = true
  · exact removeEnding_append_of_endsWith hends
  · exact absurd (removeEnding_of_not_endsWith (Bool.eq_false_iff.mpr hends)) h

end SchemaTypes.Text
