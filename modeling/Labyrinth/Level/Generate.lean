import Labyrinth.Random.ChaCha
import Labyrinth.Random.Shuffle
import Labyrinth.Level.Carve
import Labyrinth.Level.Goal

/-!
# Generating grids

A grid is carved, gets its start and its goal, and then hazards and strawberries on some
of the plain cells left, in a random order. All randomness comes from one source, first
for carving and then for the order. `Grid.grow` works with any source, and `Grid.generate`
with the stream of a seed and parameters that have been checked.
-/

namespace Labyrinth

/-- The whole part of a share of a number of cells. -/
def shareOf (cells : Nat) (share : Double) : Nat :=
  (Float.ofNat cells * share.toFloat).toUInt64.toNat

namespace Grid

/-- Puts hazards on the first of some cells and strawberries on the next. -/
def sprinkleOn (g : Grid) (cells : List Position) (hazards rewards : Nat) : Grid :=
  (g.setAll (cells.take hazards) .hazard).setAll ((cells.drop hazards).take rewards) .reward

/-- Puts hazards and strawberries on the plain cells of a grid. -/
def sprinkle {σ : Type} [WordSource σ] (params : Params) (concepts : List Concept) (g : Grid)
    (s : σ) : Grid × σ :=
  let (cells, s) := shuffle (g.positionsOf .path) s
  let (hazardShare, rewardShare) := params.densities concepts
  let hazards := shareOf cells.length hazardShare
  let rewards := min (shareOf cells.length rewardShare) (cells.length - hazards)
  (g.sprinkleOn cells hazards rewards, s)

/-- Puts the start on the first plain cell, and the goal where the parameters want it. -/
def placeEnds (params : Params) (g : Grid) : Grid :=
  let start := (g.positionsOf .path).headD Carve.origin
  let g := g.placeStart start
  g.placeGoal (if params.shortExit then g.nearExit start else g.farthest start)

/-- A grid from a source of randomness. -/
def grow {σ : Type} [WordSource σ] (params : Params) (concepts : List Concept) (s : σ) : Grid :=
  let (g, s) := (filled params.width params.height).carve params s
  ((g.placeEnds params).sprinkle params concepts s).1

/-- The grid of a seed, if one can be generated with the parameters. -/
def generate (params : Params) (seed : UInt64) (concepts : List Concept) :
    Except ParamsError Grid :=
  match params.fault? with
  | some e => .error e
  | none => .ok (grow params concepts (ChaCha.ofSeed seed))

end Grid

end Labyrinth
