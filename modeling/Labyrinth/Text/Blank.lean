import Labyrinth.Text.Range

/-!
# Blank characters

The characters with the Unicode property White_Space.
`isBlank_of_isWhitespace` says that every space, tab and line break is among them.
-/

namespace Labyrinth.Text

/-- The blank characters, by first and last code point of each range. -/
def blankRanges : List (Nat × Nat) :=
  [(0x09, 0x0D), (0x20, 0x20), (0x85, 0x85), (0xA0, 0xA0), (0x1680, 0x1680), (0x2000, 0x200A),
   (0x2028, 0x2029), (0x202F, 0x202F), (0x205F, 0x205F), (0x3000, 0x3000)]

/-- Whether a character is blank. -/
def isBlank (c : Char) : Bool := inRanges blankRanges c.toNat

/-- Every plain space, tab and line break is blank. -/
theorem isBlank_of_isWhitespace {c : Char} (h : c.isWhitespace = true) : isBlank c = true := by
  simp only [Char.isWhitespace, Bool.or_eq_true, decide_eq_true_eq] at h
  rcases h with ((rfl | rfl) | rfl) | rfl <;> decide

/-- The property has twenty-five characters. -/
example : (blankRanges.map (fun r => r.2 + 1 - r.1)).sum = 25 := by decide

end Labyrinth.Text
