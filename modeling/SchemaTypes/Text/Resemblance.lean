import SchemaTypes.Sorting
import SchemaTypes.Text.CommonStretch

/-!
# Resemblance of words

How much two words resemble each other: the part of their characters that they have in common, in
order. A word that is not known is met with the names that it resembles most.
-/

namespace SchemaTypes.Text

/-- The part of the characters of two words that stands in common stretches: one for equal words,
zero for words without a character in common. -/
def resemblance (name word : String) : Rat :=
  (2 * CommonStretch.size (CommonStretch.all name.toList word.toList) : Nat) /
    (name.length + word.length : Nat)

/-- A name that resembles a word less is not taken for it. -/
def resemblanceThreshold : Rat := 3 / 5

/-- At most this many names are taken for a word. -/
def resemblingLimit : Nat := 3

/-- The names that a word may have been meant for, those that it resembles most first; of two names
that it resembles alike the last one in order comes first. -/
def resembling (word : String) (names : List String) : List String :=
  let scored := names.map fun name ↦ (resemblance name word, name)
  let close := scored.filter fun (score, _) ↦ resemblanceThreshold ≤ score
  let ranked := sorted (fun a b ↦ b.1 < a.1 || (a.1 == b.1 && b.2 ≤ a.2)) close
  (ranked.take resemblingLimit).map Prod.snd

theorem length_resembling_le (word : String) (names : List String) :
    (resembling word names).length ≤ resemblingLimit := by
  simp only [resembling, List.length_map, List.length_take]
  exact Nat.min_le_left _ _

end SchemaTypes.Text
