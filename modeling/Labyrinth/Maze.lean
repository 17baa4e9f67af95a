import Labyrinth.Position
import Labyrinth.OrderedSet

/-!
# Mazes

A layout is any description of a grid with a start, perhaps a goal, and sets of walls,
hazards and rewards; it is made from an empty grid by edits. A maze is a layout that is
valid: it has cells, everything lies on the grid, and neither the start nor the goal is
inside a wall. `Layout.fault?` finds the first reason why a layout is no maze, and
`Layout.fault?_eq_none_iff` says that it finds none exactly when the layout is valid.
-/

namespace Labyrinth

/-- The longest side that cells with 32-bit signed coordinates allow. -/
def maxSide : Nat := 2147483647

/-- The things that have a place in a maze. -/
inductive Landmark where
  /-- Where a run begins. -/
  | start
  /-- The exit. -/
  | goal
  /-- A cell that cannot be entered. -/
  | wall
  /-- An enemy. -/
  | hazard
  /-- A strawberry. -/
  | reward
  deriving DecidableEq, Repr

/-- The word for a landmark. -/
def Landmark.name : Landmark → String
  | start => "start"
  | goal => "goal"
  | wall => "wall"
  | hazard => "hazard"
  | reward => "reward"

/-- Why a layout is no maze. -/
inductive MazeError where
  /-- A side is zero. -/
  | emptyGrid
  /-- A side is longer than `maxSide`. -/
  | tooLarge (width height : Nat)
  /-- Something lies outside the grid. -/
  | outOfBounds (what : Landmark) (pos : Position)
  /-- The start or the goal is inside a wall. -/
  | blockedCell (what : Landmark) (pos : Position)
  deriving DecidableEq, Repr

/-- The message of a maze error. -/
def MazeError.message : MazeError → String
  | emptyGrid => "maze must have at least one cell"
  | tooLarge w h => "maze " ++ toString w ++ "x" ++ toString h ++ " exceeds the coordinate range"
  | outOfBounds what pos => what.name ++ " " ++ toString pos ++ " is outside the grid"
  | blockedCell what pos => what.name ++ " " ++ toString pos ++ " is inside a wall"

/-- A description of a maze that may still be wrong. -/
structure Layout where
  /-- The number of columns. -/
  width : Nat
  /-- The number of rows. -/
  height : Nat
  /-- Where a run begins. -/
  start : Position
  /-- The exit, if there is one. -/
  goal : Option Position
  /-- The cells that cannot be entered. -/
  walls : OrderedSet Position
  /-- The cells with an enemy. -/
  hazards : OrderedSet Position
  /-- The cells with a strawberry. -/
  rewards : OrderedSet Position

/-- A change of a layout. -/
inductive LayoutEdit where
  /-- Put the start here. -/
  | start (pos : Position)
  /-- Put the goal here. -/
  | goal (pos : Position)
  /-- Add walls. -/
  | walls (cells : List Position)
  /-- Add hazards. -/
  | hazards (cells : List Position)
  /-- Add rewards. -/
  | rewards (cells : List Position)
  deriving DecidableEq, Repr

namespace Layout

/-- An empty grid that starts at its first cell and has no goal. -/
def blank (width height : Nat) : Layout :=
  ⟨width, height, ⟨0, 0⟩, none, .empty, .empty, .empty⟩

/-- The layout after one change. A start or goal replaces the one before; walls, hazards and
rewards are added. -/
def edit (l : Layout) : LayoutEdit → Layout
  | .start p => { l with start := p }
  | .goal p => { l with goal := some p }
  | .walls ps => { l with walls := l.walls.insertAll ps }
  | .hazards ps => { l with hazards := l.hazards.insertAll ps }
  | .rewards ps => { l with rewards := l.rewards.insertAll ps }

/-- The layout after some changes, one after another. -/
def editAll (l : Layout) (edits : List LayoutEdit) : Layout := edits.foldl edit l

/-- Whether a cell lies on the grid. -/
def InBounds (l : Layout) (p : Position) : Prop :=
  0 ≤ p.x ∧ p.x < l.width ∧ 0 ≤ p.y ∧ p.y < l.height

instance (l : Layout) (p : Position) : Decidable (l.InBounds p) :=
  inferInstanceAs (Decidable (_ ∧ _))

/-- Whether the player may stand on a cell. -/
def Walkable (l : Layout) (p : Position) : Prop := l.InBounds p ∧ p ∉ l.walls

instance (l : Layout) (p : Position) : Decidable (l.Walkable p) :=
  inferInstanceAs (Decidable (_ ∧ _))

/-- What makes a layout a maze. -/
structure Valid (l : Layout) : Prop where
  /-- There is a column. -/
  width_pos : 0 < l.width
  /-- There is a row. -/
  height_pos : 0 < l.height
  /-- The columns have coordinates. -/
  width_le : l.width ≤ maxSide
  /-- The rows have coordinates. -/
  height_le : l.height ≤ maxSide
  /-- The player may stand on the start. -/
  walkable_start : l.Walkable l.start
  /-- The player may stand on the goal. -/
  walkable_goal : ∀ p ∈ l.goal, l.Walkable p
  /-- The walls lie on the grid. -/
  inBounds_walls : ∀ p ∈ l.walls, l.InBounds p
  /-- The hazards lie on the grid. -/
  inBounds_hazards : ∀ p ∈ l.hazards, l.InBounds p
  /-- The rewards lie on the grid. -/
  inBounds_rewards : ∀ p ∈ l.rewards, l.InBounds p

/-- A fault of the size of the grid. -/
def sizeFault? (l : Layout) : Option MazeError :=
  if l.width = 0 ∨ l.height = 0 then some .emptyGrid
  else if maxSide < l.width ∨ maxSide < l.height then some (.tooLarge l.width l.height)
  else none

/-- The first of some landmarks that lies outside the grid. -/
def outsideFault? (l : Layout) (what : Landmark) (ps : List Position) : Option MazeError :=
  (ps.find? (fun p => ¬ l.InBounds p)).map (.outOfBounds what)

/-- The first of some landmarks that is inside a wall. -/
def blockedFault? (l : Layout) (what : Landmark) (ps : List Position) : Option MazeError :=
  (ps.find? (fun p => p ∈ l.walls)).map (.blockedCell what)

/-- The first reason why a layout is no maze. -/
def fault? (l : Layout) : Option MazeError :=
  l.sizeFault?
    |>.or (l.outsideFault? .start [l.start])
    |>.or (l.outsideFault? .goal l.goal.toList)
    |>.or (l.outsideFault? .wall l.walls.toList)
    |>.or (l.outsideFault? .hazard l.hazards.toList)
    |>.or (l.outsideFault? .reward l.rewards.toList)
    |>.or (l.blockedFault? .start [l.start])
    |>.or (l.blockedFault? .goal l.goal.toList)

theorem sizeFault?_eq_none_iff {l : Layout} :
    l.sizeFault? = none ↔
      0 < l.width ∧ 0 < l.height ∧ l.width ≤ maxSide ∧ l.height ≤ maxSide := by
  unfold sizeFault?
  split
  · simp; omega
  · split
    · simp; omega
    · simp; omega

theorem outsideFault?_eq_none_iff {l : Layout} {what : Landmark} {ps : List Position} :
    l.outsideFault? what ps = none ↔ ∀ p ∈ ps, l.InBounds p := by
  simp [outsideFault?]

theorem blockedFault?_eq_none_iff {l : Layout} {what : Landmark} {ps : List Position} :
    l.blockedFault? what ps = none ↔ ∀ p ∈ ps, p ∉ l.walls := by
  simp [blockedFault?]

/-- A layout has no fault exactly when it is valid. -/
theorem fault?_eq_none_iff {l : Layout} : l.fault? = none ↔ l.Valid := by
  simp only [fault?, Option.or_eq_none_iff, sizeFault?_eq_none_iff, outsideFault?_eq_none_iff,
    blockedFault?_eq_none_iff, List.mem_singleton, forall_eq, Option.mem_toList]
  constructor
  · rintro ⟨⟨⟨⟨⟨⟨⟨⟨hw, hh, hw', hh'⟩, hs⟩, hg⟩, hwall⟩, hhaz⟩, hrew⟩, hsw⟩, hgw⟩
    exact ⟨hw, hh, hw', hh', ⟨hs, hsw⟩, fun p hp => ⟨hg p hp, hgw p hp⟩, hwall, hhaz, hrew⟩
  · rintro ⟨hw, hh, hw', hh', hs, hg, hwall, hhaz, hrew⟩
    exact ⟨⟨⟨⟨⟨⟨⟨⟨hw, hh, hw', hh'⟩, hs.1⟩, fun p hp => (hg p hp).1⟩, hwall⟩, hhaz⟩, hrew⟩, hs.2⟩,
      fun p hp => (hg p hp).2⟩

end Layout

/-- A valid layout. -/
structure Maze where
  /-- The grid and what is on it. -/
  layout : Layout
  /-- It has no fault. -/
  valid : layout.Valid

/-- The maze that a layout describes, or its first fault. -/
def Layout.toMaze (l : Layout) : Except MazeError Maze :=
  match h : l.fault? with
  | some e => .error e
  | none => .ok ⟨l, Layout.fault?_eq_none_iff.mp h⟩

namespace Maze

/-- Where a run begins. -/
def start (m : Maze) : Position := m.layout.start

/-- The exit, if there is one. -/
def goal (m : Maze) : Option Position := m.layout.goal

/-- Whether a cell holds a hazard. -/
def isHazard (m : Maze) (p : Position) : Bool := p ∈ m.layout.hazards

/-- Whether a cell holds a reward. -/
def isReward (m : Maze) (p : Position) : Bool := p ∈ m.layout.rewards

/-- Whether the player may stand on a cell. -/
def isWalkable (m : Maze) (p : Position) : Bool := m.layout.Walkable p

/-- The maze after the reward of a cell has been taken away. -/
def withoutReward (m : Maze) (p : Position) : Maze where
  layout := { m.layout with rewards := m.layout.rewards.erase p }
  valid :=
    { m.valid with
      inBounds_rewards := fun q hq => m.valid.inBounds_rewards q (OrderedSet.mem_erase.mp hq).2 }

/-- Whether two mazes are the same when the order of their sets does not count. -/
def same (m n : Maze) : Bool :=
  m.layout.width == n.layout.width && m.layout.height == n.layout.height
    && m.start == n.start && m.goal == n.goal
    && m.layout.walls.sameMembers n.layout.walls
    && m.layout.hazards.sameMembers n.layout.hazards
    && m.layout.rewards.sameMembers n.layout.rewards

end Maze

/-- A layout becomes a maze exactly when it is valid, and stays as it is. -/
theorem Layout.toMaze_eq_ok_iff {l : Layout} {m : Maze} :
    l.toMaze = .ok m ↔ m.layout = l := by
  unfold toMaze
  split
  · rename_i e h
    simp only [reduceCtorEq, false_iff]
    rintro rfl
    rw [fault?_eq_none_iff.mpr m.valid] at h
    cases h
  · obtain ⟨k, hk⟩ := m
    simp [eq_comm]

end Labyrinth
