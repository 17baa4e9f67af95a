import Labyrinth.Maze
import Labyrinth.Event

/-!
# Moving through a maze

A walk is a player together with the strawberries already picked up in this run. A move
comes to one of five ends. A cell that cannot be entered stops it; a strawberry not yet
picked up is taken, and then a hazard on the same cell does no harm; a hazard takes a
strawberry, or sends a player without one back; anywhere else nothing happens.
-/

namespace Labyrinth

/-- A player on the way, and the rewards picked up so far. -/
structure Walk where
  /-- The player. -/
  player : Player
  /-- The cells of the rewards picked up, in that order. -/
  taken : OrderedSet Position

/-- What a move comes to. -/
inductive Landing where
  /-- The cell ahead cannot be entered. -/
  | blocked
  /-- The cell ahead is entered and nothing happens. -/
  | free
  /-- A strawberry is picked up. -/
  | reward
  /-- A hazard takes a strawberry. -/
  | lifeLost
  /-- A hazard sends the player back. -/
  | sentBack
  deriving DecidableEq, Repr

namespace Walk

/-- The walk of a player who has picked up nothing yet. -/
def ofPlayer (p : Player) : Walk := ⟨p, .empty⟩

/-- What a move in a direction comes to. -/
def landing (w : Walk) (m : Maze) (d : Direction) : Landing :=
  let target := w.player.position.step d
  if ¬ m.isWalkable target then .blocked
  else if m.isReward target ∧ target ∉ w.taken then .reward
  else if m.isHazard target then (if 0 < w.player.strawberries then .lifeLost else .sentBack)
  else .free

/-- The walk after a move in a direction that came to a given end. -/
def after (w : Walk) (d : Direction) : Landing → Walk
  | .blocked => w
  | .free => { w with player := { w.player with position := w.player.position.step d } }
  | .reward =>
    { player :=
        { w.player with
          position := w.player.position.step d
          strawberries := min (w.player.strawberries + 1) maxStrawberries }
      taken := w.taken.insert (w.player.position.step d) }
  | .lifeLost =>
    { w with
      player :=
        { w.player with
          position := w.player.position.step d
          strawberries := w.player.strawberries - 1 } }
  | .sentBack => { w with player := { w.player with position := w.player.start } }

end Walk

namespace Landing

/-- What is told about a move, given the player after it. -/
def event (l : Landing) (p : Player) : Event :=
  match l with
  | blocked | free => .step p.position p.strawberries
  | reward => .collected p.position p.strawberries
  | lifeLost => .lifeLost p.position p.strawberries
  | sentBack => .sentBack p.position

end Landing

/-- What has been counted in a run. The counters are machine words, which begin at zero again after
their greatest value. -/
structure Tally where
  /-- Units of work, the start of the run not counted. -/
  steps : UInt64
  /-- Moves tried. -/
  moves : UInt64
  /-- Moves into a cell that cannot be entered. -/
  blockedMoves : UInt64
  /-- Strawberries picked up. -/
  collected : UInt32
  /-- Strawberries taken by hazards. -/
  livesLost : UInt32
  /-- Times the player was sent back. -/
  resets : UInt32
  /-- The deepest block entered, which is within the limit of the run. -/
  deepest : Nat
  deriving DecidableEq, Repr

namespace Tally

/-- Nothing counted. -/
def zero : Tally := ⟨0, 0, 0, 0, 0, 0, 0⟩

/-- Counts one unit of work. -/
def countStep (t : Tally) : Tally := { t with steps := t.steps + 1 }

/-- Counts a block of a certain depth. -/
def countDepth (t : Tally) (depth : Nat) : Tally := { t with deepest := max t.deepest depth }

/-- Counts a move by what it came to. -/
def countMove (t : Tally) : Landing → Tally
  | .blocked => { t with moves := t.moves + 1, blockedMoves := t.blockedMoves + 1 }
  | .free => { t with moves := t.moves + 1 }
  | .reward => { t with moves := t.moves + 1, collected := t.collected + 1 }
  | .lifeLost => { t with moves := t.moves + 1, livesLost := t.livesLost + 1 }
  | .sentBack => { t with moves := t.moves + 1, resets := t.resets + 1 }

end Tally

end Labyrinth
