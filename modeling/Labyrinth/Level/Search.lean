import Labyrinth.Level.Grid

/-!
# Searching breadth first

A search goes from a cell to its neighbours, and on to theirs. The cells that it has reached and not
yet looked at wait in a queue, first come, first served; for every cell that it has reached it keeps
the number of moves, at the place of the cell in the row of tiles; and of the cells that it has
looked at it keeps the first of those that took the most moves. Every look at a cell shortens the
queue, and every cell that is put into it is no longer new, so a search comes to an end.
-/

namespace Labyrinth

/-- A breadth-first search under way on a grid. -/
structure Search (g : Grid) where
  /-- The moves to each cell that was reached, row by row. -/
  moves : Array (Option Nat)
  /-- There is one entry for every cell. -/
  size_moves : moves.size = g.tiles.size
  /-- The cells that were reached and not yet looked at. -/
  queue : List Position
  /-- The first of the cells looked at that took the most moves, and how many it took. -/
  best : Position × Nat

namespace Search

variable {g : Grid}

/-- The moves to a cell, if it was reached. -/
def moves? (s : Search g) (p : Position) : Option Nat := s.moves.getD (g.index p) none

/-- Puts a cell into the queue that was reached in so many moves. -/
def put (s : Search g) (n : Nat) (p : Position) : Search g :=
  { s with
    moves := s.moves.setIfInBounds (g.index p) (some n)
    size_moves := by simp [s.size_moves]
    queue := s.queue ++ [p] }

/-- Reaches a cell in so many moves: it is put into the queue if it can be entered and is new. -/
def reach (n : Nat) (s : Search g) (p : Position) : Search g :=
  if g.isWalkable p ∧ s.moves? p = none then s.put n p else s

/-- Looks at a cell taken from the queue, which leaves the others in it: it may be the best one, and
its neighbours are reached in one more move. -/
def look (s : Search g) (p : Position) (others : List Position) : Search g :=
  let n := (s.moves? p).getD 0
  let best := if s.best.2 < n then (p, n) else s.best
  (g.neighbours p).foldl (reach (n + 1)) { s with queue := others, best := best }

/-- A search that has reached one cell. -/
def start (g : Grid) (p : Position) : Search g where
  moves := (Array.replicate g.tiles.size none).setIfInBounds (g.index p) (some 0)
  size_moves := by simp
  queue := [p]
  best := (p, 0)

/-- A bound on the cells still to be looked at: two for every cell that was not reached, and one for
every cell in the queue. -/
def left (s : Search g) : Nat := 2 * s.moves.countP Option.isNone + s.queue.length

/-- A cell that is put into the queue for the first time leaves less to be looked at. -/
theorem left_put_lt {s : Search g} {p : Position} (hp : g.InBounds p) (hnew : s.moves? p = none)
    (n : Nat) : (s.put n p).left < s.left := by
  have hi : g.index p < s.moves.size := by
    rw [s.size_moves]
    exact Grid.index_lt hp
  have hnone : s.moves[g.index p] = none := by simpa [moves?, Array.getD, hi] using hnew
  have hset : (s.put n p).moves = s.moves.set (g.index p) (some n) hi := by
    simp only [put, Array.setIfInBounds, hi, dite_true]
  have hpos : 0 < s.moves.countP Option.isNone :=
    Array.countP_pos_iff.mpr ⟨none, hnone ▸ Array.getElem_mem hi, rfl⟩
  have hqueue : (s.put n p).queue.length = s.queue.length + 1 := by simp [put]
  rw [left, left, hset, hqueue, Array.countP_set, hnone]
  simp only [Option.isNone_none, Option.isNone_some, if_true, Bool.false_eq_true, if_false]
  omega

theorem left_reach_le (n : Nat) (s : Search g) (p : Position) : (s.reach n p).left ≤ s.left := by
  unfold reach
  split
  · rename_i h
    obtain ⟨t, ht, -⟩ : ∃ t, g.get? p = some t ∧ t.isWalkable = true := by
      simpa [Grid.isWalkable, Option.any_eq_true] using h.1
    exact Nat.le_of_lt (left_put_lt (Grid.inBounds_of_get? ht) h.2 n)
  · exact Nat.le_refl _

theorem left_foldl_reach_le (n : Nat) (s : Search g) (ps : List Position) :
    (ps.foldl (reach n) s).left ≤ s.left := by
  induction ps generalizing s with
  | nil => exact Nat.le_refl _
  | cons p ps ih => exact Nat.le_trans (ih _) (left_reach_le n s p)

/-- A look at a cell leaves less to be looked at. -/
theorem left_look_lt {s : Search g} {p : Position} {others : List Position}
    (h : s.queue = p :: others) : (s.look p others).left < s.left := by
  refine Nat.lt_of_le_of_lt (left_foldl_reach_le _ _ _) ?_
  simp only [left, h, List.length_cons]
  omega

/-- Searches on until the queue is empty. -/
def run (s : Search g) : Search g :=
  match _h : s.queue with
  | [] => s
  | p :: others => (s.look p others).run
termination_by s.left
decreasing_by exact left_look_lt ‹_›

/-- The cells that are looked at from now on, in order. -/
def order (s : Search g) : List Position :=
  match _h : s.queue with
  | [] => []
  | p :: others => p :: (s.look p others).order
termination_by s.left
decreasing_by exact left_look_lt ‹_›

theorem run_of_nil {s : Search g} (h : s.queue = []) : s.run = s := by
  rw [run]
  split
  · rfl
  · rename_i hcons
    rw [h] at hcons
    cases hcons

theorem run_of_cons {s : Search g} {p : Position} {others : List Position}
    (h : s.queue = p :: others) : s.run = (s.look p others).run := by
  rw [run]
  split
  · rename_i hnil
    rw [h] at hnil
    cases hnil
  · rename_i hcons
    rw [h] at hcons
    cases hcons
    rfl

theorem order_of_nil {s : Search g} (h : s.queue = []) : s.order = [] := by
  rw [order]
  split
  · rfl
  · rename_i hcons
    rw [h] at hcons
    cases hcons

theorem order_of_cons {s : Search g} {p : Position} {others : List Position}
    (h : s.queue = p :: others) : s.order = p :: (s.look p others).order := by
  rw [order]
  split
  · rename_i hnil
    rw [h] at hnil
    cases hnil
  · rename_i hcons
    rw [h] at hcons
    cases hcons
    rfl

end Search

end Labyrinth
