import Labyrinth.Random.Words
import Labyrinth.Level.Grid
import Labyrinth.Level.Difficulty

/-!
# Carving passages

Passages are carved between the cells with odd coordinates inside the border. Carving
goes from the last carved cell to a neighbour two cells away that is still a wall, drawn
with weights, and opens it with the wall between; where there is no such neighbour it goes
back. Every step forward opens a wall and every step back shortens the way, so carving
ends for all drawn words.
-/

namespace Labyrinth

namespace Carve

/-- A cell that can be carved next. -/
structure Candidate where
  /-- The cell between. -/
  passage : Position
  /-- The cell. -/
  cell : Position
  /-- Its weight in the draw. -/
  weight : Float

/-- The cells two steps away inside the border, each with the cell between. -/
def latticeNeighbours (g : Grid) (p : Position) : List (Position × Position) :=
  Direction.all.filterMap fun d =>
    let between := p.step d
    let cell := between.step d
    if g.Interior cell then some (between, cell) else none

/-- The number of carved cells two steps away. -/
def carvedAround (g : Grid) (p : Position) : Nat :=
  (latticeNeighbours g p).countP (fun n => g.is n.2 .path)

/-- The weight of a cell with `n` carved cells around it. -/
def weight (params : Params) (n : Nat) : Float :=
  params.branching.toFloat * Float.ofNat (1 + n)
    + params.deadEnd.toFloat * Float.ofNat (1 + (2 - n))

/-- The cells that can be carved from a cell, in the order of the directions. -/
def candidates (params : Params) (g : Grid) (p : Position) : List Candidate :=
  ((latticeNeighbours g p).filter (fun n => g.is n.2 .wall)).map fun n =>
    ⟨n.1, n.2, weight params (carvedAround g n.2)⟩

/-- The candidate in whose share of the weight a roll falls; the last one if the roll is beyond
all shares. -/
def choose (roll : Float) (c : Candidate) : List Candidate → Candidate
  | [] => c
  | next :: rest => if roll < c.weight then c else choose (roll - c.weight) next rest

/-- The whole weight of some candidates. -/
def totalWeight (cs : List Candidate) : Float := cs.foldl (fun sum c => sum + c.weight) 0.0

/-- Opens a candidate and the cell before it. -/
def opened (g : Grid) (c : Candidate) : Grid := (g.set c.cell .path).set c.passage .path

theorem choose_mem (roll : Float) (c : Candidate) (rest : List Candidate) :
    choose roll c rest ∈ c :: rest := by
  induction rest generalizing roll c with
  | nil => simp [choose]
  | cons next rest ih =>
    unfold choose
    split
    · exact List.mem_cons_self
    · exact List.mem_cons_of_mem _ (ih _ _)

/-- Whatever can be carved is a wall. -/
theorem is_wall_of_mem_candidates {params : Params} {g : Grid} {p : Position} {c : Candidate}
    (h : c ∈ candidates params g p) : g.is c.cell .wall = true := by
  simp only [candidates, List.mem_map, List.mem_filter] at h
  obtain ⟨n, ⟨-, hn⟩, rfl⟩ := h
  exact hn

/-- Opening a candidate leaves fewer walls. -/
theorem wallCount_opened_lt {g : Grid} {c : Candidate} (h : g.is c.cell .wall = true) :
    (opened g c).wallCount < g.wallCount :=
  Nat.lt_of_le_of_lt (Grid.wallCount_set_le (by decide))
    (Grid.wallCount_set_of_is_wall (by decide) h)

/-- Carves on from the last cell of a way, given last cell first. -/
def carveFrom {σ : Type} [WordSource σ] (params : Params) (g : Grid) (way : List Position)
    (s : σ) : Grid × σ :=
  match way with
  | [] => (g, s)
  | here :: back =>
    match _h : candidates params g here with
    | [] => carveFrom params g back s
    | c :: cs =>
      let (u, s) := WordSource.fraction s
      let chosen := choose (u * totalWeight (c :: cs)) c cs
      carveFrom params (opened g chosen) (chosen.cell :: here :: back) s
termination_by 2 * g.wallCount + way.length
decreasing_by
  · simp only [List.length_cons]
    omega
  · have hm : choose (u * totalWeight (c :: cs)) c cs ∈ candidates params g here :=
      ‹candidates params g here = c :: cs› ▸ choose_mem (u * totalWeight (c :: cs)) c cs
    have := wallCount_opened_lt (is_wall_of_mem_candidates hm)
    simp only [List.length_cons]
    omega

/-- Where carving begins. -/
def origin : Position := ⟨1, 1⟩

end Carve

/-- Carves passages into a grid of walls. -/
def Grid.carve {σ : Type} [WordSource σ] (params : Params) (g : Grid) (s : σ) : Grid × σ :=
  Carve.carveFrom params (g.set Carve.origin .path) [Carve.origin] s

end Labyrinth
