/-!
White space at the ends of a text.

`isBlank` is the Unicode property `White_Space`, and `trim` removes the
characters with this property from both ends of a text.
-/

namespace Interposition.Text

/-- The ranges of code points with the property `White_Space`. -/
def blankRanges : List (Nat × Nat) :=
  [(0x9, 0xD), (0x20, 0x20), (0x85, 0x85), (0xA0, 0xA0), (0x1680, 0x1680),
   (0x2000, 0x200A), (0x2028, 0x2029), (0x202F, 0x202F), (0x205F, 0x205F),
   (0x3000, 0x3000)]

/-- Whether a code point lies in one of the given ranges, ends included. -/
def inRanges (ranges : List (Nat × Nat)) (code : Nat) : Bool :=
  ranges.any fun (first, last) => first ≤ code && code ≤ last

/-- Whether a character is white space. -/
def isBlank (c : Char) : Bool :=
  inRanges blankRanges c.toNat

/-- Remove the white space at both ends. -/
def trim (text : List Char) : List Char :=
  ((text.dropWhile isBlank).reverse.dropWhile isBlank).reverse

/-- Nothing is left of a text of white space. -/
theorem trim_blank (text : List Char) (blank : ∀ c ∈ text, isBlank c = true) :
    trim text = [] := by
  have dropped : text.dropWhile isBlank = [] := by
    induction text with
    | nil => rfl
    | cons c rest inductionHypothesis =>
        rw [List.dropWhile_cons_of_pos (blank c (by simp))]
        exact inductionHypothesis fun d member => blank d (by simp [member])
  simp [trim, dropped]

end Interposition.Text
