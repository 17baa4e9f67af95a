import Labyrinth.Level.Build
import Labyrinth.Proofs.Level.Ends
import Labyrinth.Proofs.Level.Spawning

/-!
# Levels can be played

The maze of a level is valid, and what is on it does not get in its own way: the border is
closed, all floor is in reach of the start, and walls, enemies, strawberries, the start and
the goal have cells of their own. This holds of every base seed, number and mode, whatever
words the sources of randomness deliver.
-/

namespace Labyrinth

namespace Level

variable {l : Level} {p : Position}

/-- What is in the layout of a level, field by field. -/
theorem layout_eq (l : Level) :
    l.layout =
      { width := l.grid.width, height := l.grid.height
        start := l.grid.start, goal := some l.grid.goal
        walls := .ofList (l.grid.positionsOf .wall)
        hazards := (OrderedSet.ofList (l.grid.positionsOf .hazard)).insertAll
          (l.enemies.map Enemy.position)
        rewards := (OrderedSet.ofList (l.grid.positionsOf .reward)).insertAll l.collectibles } :=
  rfl

/-- The walls of the maze are those of the grid. -/
theorem mem_walls_layout : p ∈ l.layout.walls ↔ l.grid.get? p = some .wall := by
  rw [layout_eq, OrderedSet.mem_ofList, Grid.mem_positionsOf]

/-- The hazards of the maze are those of the grid and the enemies. -/
theorem mem_hazards_layout :
    p ∈ l.layout.hazards ↔ l.grid.get? p = some .hazard ∨ p ∈ l.enemies.map Enemy.position := by
  rw [layout_eq, OrderedSet.mem_insertAll, OrderedSet.mem_ofList, Grid.mem_positionsOf]

/-- The rewards of the maze are those of the grid and the strawberries placed later. -/
theorem mem_rewards_layout :
    p ∈ l.layout.rewards ↔ l.grid.get? p = some .reward ∨ p ∈ l.collectibles := by
  rw [layout_eq, OrderedSet.mem_insertAll, OrderedSet.mem_ofList, Grid.mem_positionsOf]

theorem inBounds_layout : l.layout.InBounds p ↔ l.grid.InBounds p := Iff.rfl

/-- The player may stand where the grid can be entered. -/
theorem walkable_layout : l.layout.Walkable p ↔ l.grid.isWalkable p = true := by
  rw [Layout.Walkable, mem_walls_layout, inBounds_layout, Grid.isWalkable_iff,
    ← Grid.exists_get?_iff]
  constructor
  · rintro ⟨⟨t, ht⟩, hwall⟩
    refine ⟨t, ht, ?_⟩
    rintro rfl
    exact hwall ht
  · rintro ⟨t, ht, hne⟩
    refine ⟨⟨t, ht⟩, ?_⟩
    rw [ht]
    intro hwall
    exact hne (Option.some.inj hwall)

end Level

/-- The sides of a level's grid. -/
theorem Params.sides_forLevel (level : Nat) (mode : Mode) :
    7 ≤ (forLevel level mode).width ∧ (forLevel level mode).width ≤ 25 ∧
      (forLevel level mode).height = (forLevel level mode).width := by
  cases mode <;> simp only [forLevel, and_true] <;> omega

/-- Whether a cell of a layout lies on its border. -/
def Layout.OnBorder (l : Layout) (p : Position) : Prop :=
  l.InBounds p ∧ (p.x = 0 ∨ p.x + 1 = l.width ∨ p.y = 0 ∨ p.y + 1 = l.height)

/-- A cell of a layout that is neither in a wall nor has a hazard or a reward. -/
def Layout.Clear (l : Layout) (p : Position) : Prop :=
  p ∉ l.walls ∧ p ∉ l.hazards ∧ p ∉ l.rewards

namespace Level

/-- What makes a level with a maze playable, with at most `cap` enemies. -/
structure Playable (l : Level) (cap : Nat) (m : Maze) : Prop where
  /-- The border is walls. -/
  border : ∀ p, m.layout.OnBorder p → p ∈ m.layout.walls
  /-- No hazard is in a wall. -/
  walls_hazards : ∀ p ∈ m.layout.walls, p ∉ m.layout.hazards
  /-- No reward is in a wall. -/
  walls_rewards : ∀ p ∈ m.layout.walls, p ∉ m.layout.rewards
  /-- No cell has a hazard and a reward. -/
  hazards_rewards : ∀ p ∈ m.layout.hazards, p ∉ m.layout.rewards
  /-- Nothing is on the start. -/
  clear_start : m.layout.Clear m.start
  /-- There is a goal away from the start, with nothing on it. -/
  clear_goal : ∃ goal, m.goal = some goal ∧ goal ≠ m.start ∧ m.layout.Clear goal ∧
    Reaches m.layout.Walkable m.start goal
  /-- All floor is reached from the start. -/
  joined : ∀ p, m.layout.Walkable p → Reaches m.layout.Walkable m.start p
  /-- There are not too many enemies. -/
  length_enemies_le : l.enemies.length ≤ cap
  /-- Enemies stand off the border. -/
  enemies_inside : ∀ e ∈ l.enemies, m.layout.InBounds e.position ∧ ¬ m.layout.OnBorder e.position
  /-- Enemies stand row by row, so no two on one cell. -/
  enemies_ordered : (l.enemies.map Enemy.position).Pairwise Position.Before
  /-- No cell has two strawberries. -/
  collectibles_nodup : l.collectibles.Nodup
  /-- No strawberry is on a hazard. -/
  collectibles_safe : ∀ p ∈ l.collectibles, p ∉ m.layout.hazards

variable {l : Level} {params : Params} {p : Position}

/-- Enemies that stand as the spawning of enemies puts them. -/
structure Manned (l : Level) (cap : Nat) : Prop where
  /-- They stand on plain cells off the border. -/
  enemy_tile : ∀ p ∈ l.enemies.map Enemy.position,
    l.grid.get? p = some .path ∧ l.grid.Interior p
  /-- There are not too many. -/
  length_enemies_le : l.enemies.length ≤ cap
  /-- They stand row by row. -/
  enemies_ordered : (l.enemies.map Enemy.position).Pairwise Position.Before
  /-- Strawberries placed later lie on cells made for them or on plain cells without an enemy. -/
  collectible_tile : ∀ p ∈ l.collectibles, l.grid.get? p = some .reward ∨
    (l.grid.get? p = some .path ∧ p ∉ l.enemies.map Enemy.position)
  /-- No cell has two of them. -/
  collectibles_nodup : l.collectibles.Nodup

/-- A cell with a tile that nothing is put on is clear. -/
theorem Manned.clear {cap : Nat} (h : Manned l cap) {t : Tile} (ht : l.grid.get? p = some t)
    (hfree : t = .start ∨ t = .exit) : l.layout.Clear p := by
  refine ⟨?_, ?_, ?_⟩
  · rw [mem_walls_layout, ht]
    rcases hfree with rfl | rfl <;> decide
  · rw [mem_hazards_layout, ht]
    rintro (hhazard | henemy)
    · rcases hfree with rfl | rfl <;> cases hhazard
    · have hpath := (h.enemy_tile p henemy).1
      rw [ht] at hpath
      rcases hfree with rfl | rfl <;> cases hpath
  · rw [mem_rewards_layout, ht]
    rintro (hreward | hcollectible)
    · rcases hfree with rfl | rfl <;> cases hreward
    · have htile := h.collectible_tile p hcollectible
      rw [ht] at htile
      rcases hfree with rfl | rfl <;> simp at htile

/-- The tile of a cell with a hazard. -/
theorem Manned.hazard_tile {cap : Nat} (h : Manned l cap) (hp : p ∈ l.layout.hazards) :
    l.grid.get? p = some .hazard ∨ l.grid.get? p = some .path := by
  rw [mem_hazards_layout] at hp
  exact hp.imp_right fun henemy => (h.enemy_tile p henemy).1

/-- The tile of a cell with a reward. -/
theorem Manned.reward_tile {cap : Nat} (h : Manned l cap) (hp : p ∈ l.layout.rewards) :
    l.grid.get? p = some .reward ∨ (l.grid.get? p = some .path ∧ p ∉ l.layout.hazards) := by
  rw [mem_rewards_layout] at hp
  rcases hp with hreward | hcollectible
  · exact .inl hreward
  · rcases h.collectible_tile p hcollectible with hreward | ⟨hpath, hfree⟩
    · exact .inl hreward
    · refine .inr ⟨hpath, ?_⟩
      rw [mem_hazards_layout, hpath]
      rintro (hhazard | henemy)
      · cases hhazard
      · exact hfree henemy

/-- No cell has a hazard and a reward. -/
theorem Manned.hazards_rewards {cap : Nat} (h : Manned l cap) (hp : p ∈ l.layout.hazards) :
    p ∉ l.layout.rewards := by
  intro hreward
  rcases h.reward_tile hreward with htile | ⟨-, hsafe⟩
  · rcases h.hazard_tile hp with hhazard | hpath
    · rw [htile] at hhazard; cases hhazard
    · rw [htile] at hpath; cases hpath
  · exact hsafe hp

theorem start_layout : l.layout.start = l.grid.start := rfl

theorem goal_layout : l.layout.goal = some l.grid.goal := rfl

/-- The layout of a whole grid of a proper size is that of a maze. -/
theorem Manned.valid_layout {cap : Nat} (h : Manned l cap) (hgrown : l.grid.Grown params)
    (hwidth : 0 < l.grid.width) (hheight : 0 < l.grid.height) (hwidth' : l.grid.width ≤ maxSide)
    (hheight' : l.grid.height ≤ maxSide) : l.layout.Valid := by
  have hin {t : Tile} {q : Position} (hq : l.grid.get? q = some t) : l.layout.InBounds q :=
    Grid.inBounds_of_get? hq
  refine ⟨hwidth, hheight, hwidth', hheight', ?_, ?_, ?_, ?_, ?_⟩
  · rw [walkable_layout, start_layout, Grid.isWalkable_iff]
    exact ⟨.start, hgrown.start_tile, by decide⟩
  · intro q hq
    rw [goal_layout] at hq
    cases hq
    rw [walkable_layout, Grid.isWalkable_iff]
    exact ⟨.exit, hgrown.goal_tile, by decide⟩
  · intro q hq
    exact hin (mem_walls_layout.mp hq)
  · intro q hq
    rcases h.hazard_tile hq with htile | htile <;> exact hin htile
  · intro q hq
    rcases h.reward_tile hq with htile | ⟨htile, -⟩ <;> exact hin htile

/-- A whole grid with enemies and strawberries in their places is playable. -/
theorem Manned.playable {cap : Nat} {m : Maze} (h : Manned l cap) (hgrown : l.grid.Grown params)
    (hm : m.layout = l.layout) : Playable l cap m := by
  have hstart : m.start = l.grid.start := by rw [Maze.start, hm, start_layout]
  have hgoal : m.goal = some l.grid.goal := by rw [Maze.goal, hm, goal_layout]
  have hreach (p : Position) (hp : l.layout.Walkable p) :
      Reaches l.layout.Walkable l.grid.start p :=
    (hgrown.joined p (walkable_layout.mp hp)).mono fun q hq => walkable_layout.mpr hq
  have hwalls {p : Position} (hp : p ∈ l.layout.walls) {t : Tile} (ht : t ≠ .wall) :
      l.grid.get? p ≠ some t := by
    rw [mem_walls_layout.mp hp]
    intro heq
    exact ht (Option.some.inj heq).symm
  refine
    { border := ?_, walls_hazards := ?_, walls_rewards := ?_, hazards_rewards := ?_
      clear_start := ?_, clear_goal := ?_, joined := ?_
      length_enemies_le := h.length_enemies_le, enemies_inside := ?_
      enemies_ordered := h.enemies_ordered, collectibles_nodup := h.collectibles_nodup
      collectibles_safe := ?_ }
  all_goals rw [hm]
  · rintro p ⟨hin, hedge⟩
    obtain ⟨t, ht⟩ := Grid.exists_get?_iff.mpr hin
    rcases hgrown.floor p t ht with rfl | hinside
    · exact mem_walls_layout.mpr ht
    · have hw : l.layout.width = l.grid.width := rfl
      have hh : l.layout.height = l.grid.height := rfl
      rw [hw, hh] at hedge
      simp only [Grid.Interior] at hinside
      omega
  · intro p hp hhazard
    rcases h.hazard_tile hhazard with htile | htile <;> exact hwalls hp (by decide) htile
  · intro p hp hreward
    rcases h.reward_tile hreward with htile | ⟨htile, -⟩ <;> exact hwalls hp (by decide) htile
  · intro p hp
    exact h.hazards_rewards hp
  · rw [hstart]
    exact h.clear hgrown.start_tile (.inl rfl)
  · refine ⟨l.grid.goal, hgoal, ?_, h.clear hgrown.goal_tile (.inr rfl), ?_⟩
    · rw [hstart]
      intro heq
      have htile := hgrown.goal_tile
      rw [heq, hgrown.start_tile] at htile
      cases htile
    · rw [hstart]
      refine hreach _ (walkable_layout.mpr (Grid.isWalkable_iff.mpr ?_))
      exact ⟨.exit, hgrown.goal_tile, by decide⟩
  · intro p hp
    rw [hstart]
    exact hreach p hp
  · intro e he
    obtain ⟨htile, hinside⟩ := h.enemy_tile e.position (List.mem_map_of_mem he)
    refine ⟨Grid.inBounds_of_get? htile, ?_⟩
    rintro ⟨-, hedge⟩
    have hw : l.layout.width = l.grid.width := rfl
    have hh : l.layout.height = l.grid.height := rfl
    rw [hw, hh] at hedge
    simp only [Grid.Interior] at hinside
    omega
  · intro p hp hhazard
    exact h.hazards_rewards hhazard (mem_rewards_layout.mpr (.inr hp))

section

variable {σ : Type} [WordSource σ] (source : UInt64 → σ) (base : UInt64) (number : UInt32)
  (mode : Mode)

theorem grid_buildFrom :
    (buildFrom source base number mode).grid =
      Grid.grow (Params.forLevel (max number 1).toNat mode)
        (Concept.taughtAt (max number 1).toNat) (source (seedOf base (max number 1) mode)) := by
  simp only [buildFrom]

theorem enemies_buildFrom :
    (buildFrom source base number mode).enemies =
      Spawn.enemies (buildFrom source base number mode).grid
        (Params.forLevel (max number 1).toNat mode).enemyCap
        (source (Spawn.enemySeed (seedOf base (max number 1) mode))) := by
  simp only [buildFrom]

theorem collectibles_buildFrom :
    (buildFrom source base number mode).collectibles =
      Spawn.collectibles (buildFrom source base number mode).grid
        (Concept.taughtAt (max number 1).toNat)
        (enemyCells (buildFrom source base number mode).enemies)
        (source (Spawn.collectibleSeed (seedOf base (max number 1) mode))) := by
  simp only [buildFrom]

/-- Enemies and strawberries are in their places in every level. -/
theorem manned_buildFrom :
    Manned (buildFrom source base number mode)
      (Params.forLevel (max number 1).toNat mode).enemyCap := by
  have henemies := enemies_buildFrom source base number mode
  have hcollectibles := collectibles_buildFrom source base number mode
  refine ⟨?_, ?_, ?_, ?_, ?_⟩
  · intro p hp
    rw [henemies] at hp
    exact Spawn.of_mem_enemies hp
  · rw [henemies]
    exact Spawn.length_enemies_le _ _ _
  · rw [henemies]
    exact Spawn.pairwise_enemies _ _ _
  · intro p hp
    rw [hcollectibles] at hp
    refine (Spawn.of_mem_collectibles hp).imp_right ?_
    rintro ⟨hpath, havoid⟩
    exact ⟨hpath, fun henemy => havoid (OrderedSet.mem_ofList.mpr henemy)⟩
  · rw [hcollectibles]
    exact Spawn.nodup_collectibles _ _ _ _

/-- The maze of every level is valid and playable, for every base seed, number and mode and
whatever words the sources of randomness deliver. -/
theorem exists_playable_maze :
    ∃ m, (buildFrom source base number mode).toMaze = .ok m ∧
      Playable (buildFrom source base number mode)
        (Params.forLevel (max number 1).toNat mode).enemyCap m := by
  have hsides := Params.sides_forLevel (max number 1).toNat mode
  have hmanned := manned_buildFrom source base number mode
  have hgrid := grid_buildFrom source base number mode
  generalize buildFrom source base number mode = l at hmanned hgrid ⊢
  generalize Params.forLevel (max number 1).toNat mode = params at hsides hmanned hgrid ⊢
  obtain ⟨hwidth, hwidth', hheight⟩ := hsides
  have hgrown : l.grid.Grown params := by
    rw [hgrid]
    exact Grid.grown_grow (by omega) (by omega) (fun _ => by omega) _ _
  have hw := hgrown.width_eq
  have hh := hgrown.height_eq
  have hvalid : l.layout.Valid := by
    refine hmanned.valid_layout hgrown ?_ ?_ ?_ ?_ <;> (try simp only [maxSide]) <;> omega
  exact ⟨⟨l.layout, hvalid⟩, Layout.toMaze_eq_ok_iff.mpr rfl, hmanned.playable hgrown rfl⟩

end

end Level

end Labyrinth
