/-!
# Cells and directions

A cell of the plane is a pair of integers: the column grows to the right, the row
grows downwards. The four directions are unit moves between neighbouring cells.
`Direction.ofKeyword?_eq_some_iff` says that a direction is read from exactly the
word it is written as, and `Position.manhattan_step` that one move goes one cell far.
-/

namespace Labyrinth

/-- A cell of the plane, by column and row. -/
structure Position where
  /-- The column. -/
  x : Int
  /-- The row; it grows downwards. -/
  y : Int
  deriving DecidableEq, Repr, Inhabited, Hashable

/-- One of the four unit moves. -/
inductive Direction where
  /-- One row up. -/
  | up
  /-- One row down. -/
  | down
  /-- One column to the left. -/
  | left
  /-- One column to the right. -/
  | right
  deriving DecidableEq, Repr

namespace Direction

/-- All directions, in the order in which neighbours are visited. -/
def all : List Direction := [up, down, left, right]

/-- The change of column and row. -/
def delta : Direction → Int × Int
  | up => (0, -1)
  | down => (0, 1)
  | left => (-1, 0)
  | right => (1, 0)

/-- The word a direction is written as. -/
def keyword : Direction → String
  | up => "up"
  | down => "down"
  | left => "left"
  | right => "right"

/-- The direction a word names, if it names one; capitals are not accepted. -/
def ofKeyword? (word : String) : Option Direction :=
  all.find? (fun d => d.keyword == word)

/-- The place of a direction in `all`. -/
def index (d : Direction) : Nat := all.idxOf d

theorem mem_all (d : Direction) : d ∈ all := by cases d <;> decide

/-- No two directions share a word. -/
theorem keyword_injective {d e : Direction} (h : d.keyword = e.keyword) : d = e := by
  revert h
  cases d <;> cases e <;> decide

/-- A direction is read from exactly the word it is written as. -/
theorem ofKeyword?_eq_some_iff {word : String} {d : Direction} :
    ofKeyword? word = some d ↔ word = d.keyword := by
  constructor
  · intro h
    have hw := List.find?_some h
    exact (eq_of_beq hw).symm
  · rintro rfl
    cases d <;> decide

end Direction

namespace Position

/-- The cell shifted by a change of column and row. -/
def offset (p : Position) (d : Int × Int) : Position := ⟨p.x + d.1, p.y + d.2⟩

/-- The neighbour of a cell in a direction. -/
def step (p : Position) (d : Direction) : Position := p.offset d.delta

/-- The four neighbours of a cell, in the order of `Direction.all`. -/
def neighbours (p : Position) : List Position := Direction.all.map p.step

/-- The number of unit moves between two cells when nothing is in the way. -/
def manhattan (p q : Position) : Nat := (p.x - q.x).natAbs + (p.y - q.y).natAbs

/-- Cells are ordered by column, then by row. -/
instance : Ord Position where
  compare p q := (compare p.x q.x).then (compare p.y q.y)

instance : ToString Position where
  toString p := "(" ++ toString p.x ++ ", " ++ toString p.y ++ ")"

/-- A move leads to another cell. -/
theorem step_ne (p : Position) (d : Direction) : p.step d ≠ p := by
  obtain ⟨x, y⟩ := p
  cases d <;> simp only [step, offset, Direction.delta, ne_eq, Position.mk.injEq] <;> omega

/-- One move goes exactly one cell far. -/
theorem manhattan_step (p : Position) (d : Direction) : p.manhattan (p.step d) = 1 := by
  cases d <;> simp only [manhattan, step, offset, Direction.delta] <;> omega

theorem manhattan_self (p : Position) : p.manhattan p = 0 := by simp [manhattan]

theorem manhattan_comm (p q : Position) : p.manhattan q = q.manhattan p := by
  simp only [manhattan]
  omega

end Position

end Labyrinth
