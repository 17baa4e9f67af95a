import Labyrinth.Level.Grid

/-!
# Placing the goal

The goal is the cell that takes the most moves to reach, or, on the easiest levels, a
cell not far from the start. The farthest cell is found by a flood: all cells reached
after so many moves are walled up, and the cells next to them are flooded in turn. The
answer is the first cell of the last wave that had any.
-/

namespace Labyrinth

namespace Flood

/-- Floods those of some cells that can still be entered; `reached` holds those flooded before,
last first. -/
def wave (g : Grid) (reached : List Position) : List Position → Grid × List Position
  | [] => (g, reached.reverse)
  | p :: ps =>
    if g.isWalkable p then wave (g.set p .wall) (p :: reached) ps else wave g reached ps

theorem walkableCount_wave_le (g : Grid) (reached ps : List Position) :
    (wave g reached ps).1.walkableCount + (wave g reached ps).2.length
      ≤ g.walkableCount + reached.length := by
  induction ps generalizing g reached with
  | nil => simp [wave]
  | cons p ps ih =>
    unfold wave
    split
    · rename_i hp
      have h := ih (g.set p .wall) (p :: reached)
      have := Grid.walkableCount_set_wall hp
      simp only [List.length_cons] at h
      omega
    · exact ih g reached

/-- A wave that reaches any cell leaves fewer cells to enter. -/
theorem walkableCount_wave_lt {g : Grid} {ps : List Position} {p : Position} {next : List Position}
    (h : (wave g [] ps).2 = p :: next) : (wave g [] ps).1.walkableCount < g.walkableCount := by
  have := walkableCount_wave_le g [] ps
  rw [h] at this
  simp only [List.length_cons, List.length_nil] at this
  omega

/-- Floods the cells next to those of a wave. -/
def nextWave (g : Grid) (reached : List Position) : Grid × List Position :=
  wave g [] (reached.flatMap g.neighbours)

/-- The first cell of the last wave, given the wave before and its first cell. -/
def lastWave (g : Grid) (first : Position) (reached : List Position) : Position :=
  match _h : (nextWave g reached).2 with
  | [] => first
  | p :: next => lastWave (nextWave g reached).1 p (p :: next)
termination_by g.walkableCount
decreasing_by exact walkableCount_wave_lt ‹_›

end Flood

namespace Grid

/-- The cell that takes the most moves to reach from a cell; of several, the one reached first. -/
def farthest (g : Grid) (p : Position) : Position := Flood.lastWave (g.set p .wall) p [p]

/-- The least number of moves to a near exit, were there no walls. -/
def nearExitDistance : Nat := 4

/-- The first plain cell, row by row, that is neither too near nor too far; the cell itself if
there is none. -/
def nearExit (g : Grid) (p : Position) : Position :=
  ((g.positionsOf .path).find? fun q =>
    nearExitDistance ≤ q.manhattan p && q.manhattan p ≤ (g.width + g.height) / 3).getD p

end Grid

end Labyrinth
