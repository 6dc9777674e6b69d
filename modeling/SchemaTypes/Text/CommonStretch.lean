/-!
# Common stretches of two lists

What two lists have in common, in order: the longest common stretch is found, and the elements
before it and behind it are compared in the same way. Lines of texts and characters of words are
compared alike.

Among equally long stretches the one that begins first in the first list counts, and then the one
that begins first in the second. In a second list of two hundred elements or more, elements that
make up more than one per cent of it begin no stretch, but may extend one.
-/

namespace SchemaTypes.Text.CommonStretch

variable {α : Type} [BEq α]

/-- A common stretch: where it begins in either list, and its length. -/
structure Stretch where
  left : Nat
  right : Nat
  length : Nat
deriving DecidableEq, Repr

/-- A part of two lists: positions from `start` up to before `stop`. -/
structure Part where
  leftStart : Nat
  leftStop : Nat
  rightStart : Nat
  rightStop : Nat
deriving DecidableEq, Repr

/-- Whether an element is so frequent in a long list that it begins no stretch. -/
def isPopular (right : List α) (x : α) : Bool :=
  200 ≤ right.length && right.length / 100 + 1 < right.count x

/-- Lengths of the stretches that end with `x` and with each of the elements of the second list,
from the lengths for the element before. -/
def endings (popular : α → Bool) (x : α) (right : List α) (previous : List Nat) : List Nat :=
  (right.zip (0 :: previous)).map fun (other, length) ↦
    if x == other && !popular other then length + 1 else 0

/-- The first longest among the stretches that end in one element of the first list. -/
def improve (best : Stretch) (left right : Nat) : List Nat → Stretch
  | [] => best
  | length :: more =>
    let next := if best.length < length then ⟨left + 1 - length, right + 1 - length, length⟩
      else best
    improve next left (right + 1) more

/-- The first longest stretch among elements of the first list, from position `left` on. -/
def longestFrom (popular : α → Bool) (rightStart : Nat) (right : List α) :
    List α → Nat → List Nat → Stretch → Stretch
  | [], _, _, best => best
  | x :: rest, left, previous, best =>
    let lengths := endings popular x right previous
    longestFrom popular rightStart right rest (left + 1) lengths
      (improve best left rightStart lengths)

/-- Number of elements in which two lists agree from the head on. -/
def agreement : List α → List α → Nat
  | x :: xs, y :: ys => if x == y then agreement xs ys + 1 else 0
  | _, _ => 0

theorem agreement_le_length (xs ys : List α) : agreement xs ys ≤ xs.length := by
  fun_induction agreement xs ys <;> simp_all

/-- Elements from `start` up to before `stop`. -/
def slice {β : Type} (xs : List β) (start stop : Nat) : List β := (xs.take stop).drop start

theorem length_slice {β : Type} (xs : List β) (start stop : Nat) :
    (slice xs start stop).length = min stop xs.length - start := by
  simp [slice]

/-- The longest common stretch of a part, extended by equal elements at both ends. -/
def longest (popular : α → Bool) (left right : List α) (p : Part) : Stretch :=
  let within := slice right p.rightStart p.rightStop
  let found := longestFrom popular p.rightStart within (slice left p.leftStart p.leftStop)
    p.leftStart (within.map fun _ ↦ 0) ⟨p.leftStart, p.rightStart, 0⟩
  -- Popular elements are admitted only here, at the ends of what other elements have begun.
  let before := agreement (slice left p.leftStart found.left).reverse
    (slice right p.rightStart found.right).reverse
  let behind := agreement (slice left (found.left + found.length) p.leftStop)
    (slice right (found.right + found.length) p.rightStop)
  ⟨found.left - before, found.right - before, before + found.length + behind⟩

/-- The common stretches of a part, in order. The fuel bounds the depth of the halving. -/
def within (popular : α → Bool) (left right : List α) : Nat → Part → List Stretch
  | 0, _ => []
  | fuel + 1, p =>
    let s := longest popular left right p
    if s.length = 0 then []
    else
      let before := if p.leftStart < s.left && p.rightStart < s.right then
          within popular left right fuel ⟨p.leftStart, s.left, p.rightStart, s.right⟩
        else []
      let behind :=
        if s.left + s.length < p.leftStop && s.right + s.length < p.rightStop then
          within popular left right fuel
            ⟨s.left + s.length, p.leftStop, s.right + s.length, p.rightStop⟩
        else []
      before ++ s :: behind

/-- The common stretches of two lists, in order. -/
def all (left right : List α) : List Stretch :=
  within (isPopular right) left right (left.length + 1) ⟨0, left.length, 0, right.length⟩

/-- Joins stretches that follow each other in both lists. -/
def merge : List Stretch → List Stretch
  | [] => []
  | s :: rest =>
    match merge rest with
    | [] => [s]
    | t :: more =>
      if s.left + s.length = t.left ∧ s.right + s.length = t.right then
        ⟨s.left, s.right, s.length + t.length⟩ :: more
      else s :: t :: more

/-- Number of elements in stretches. -/
def size : List Stretch → Nat
  | [] => 0
  | s :: rest => s.length + size rest

/-- Joining stretches loses no element. -/
theorem size_merge (stretches : List Stretch) : size (merge stretches) = size stretches := by
  induction stretches with
  | nil => rfl
  | cons s rest ih =>
    rw [merge]
    split
    next h =>
      rw [h] at ih
      simp_all [size]
    next t more h =>
      rw [h] at ih
      split <;> simp_all [size]
      omega

end SchemaTypes.Text.CommonStretch
