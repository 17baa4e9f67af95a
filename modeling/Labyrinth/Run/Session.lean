import Labyrinth.Run.Drive

/-!
# Several runs on one maze

In a session programs are run one after another. The strawberries picked up in a run
are gone from the maze in the next; a player is carried over or begins anew.
-/

namespace Labyrinth

/-- The maze as it is now, and the player who runs next. -/
structure Session where
  /-- The maze with the rewards that are left. -/
  maze : Maze
  /-- The player of the next run. -/
  player : Player

/-- The maze without the rewards of some cells. -/
def Maze.withoutRewards (m : Maze) (ps : List Position) : Maze := ps.foldl withoutReward m

namespace Session

/-- Runs a program: its events, its summary, and the session afterwards. With `carry` the
player at the end of the run is the next one. -/
def play (s : Session) (maxDepth : Nat) (carry : Bool) (program : Program) :
    List Event × Report × Session :=
  let (events, report) := Run.collect maxDepth program s.maze s.player
  let next := if carry then report.finalPlayer.getD s.player else s.player
  (events, report, ⟨s.maze.withoutRewards (Event.collectedPositions events), next⟩)

end Session

end Labyrinth
