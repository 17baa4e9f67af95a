import Labyrinth.Proofs.Run.Routes
import Labyrinth.Proofs.Level.Playable

/-!
# Which levels can be won

Nothing in the making of a level looks at the hazards between the start and the goal, so a level
is won with the strawberries on the way or not at all. A level can be won by a player with empty
hands exactly if a route to the goal can be afforded, and always by a player with as many
strawberries as there are hazards: the goal is reached by a route that enters no cell twice.
-/

namespace Labyrinth

namespace Maze

variable {m : Maze} {start p q : Position} {held : Nat} {route : List Position}

/-- A route that can be afforded can be cut short at each of its cells. -/
theorem Affords.exists_front (h : m.Affords start held route p) (hq : q ∈ route) :
    ∃ front, front <+: route ∧ m.Affords start held front q := by
  induction h with
  | here => cases hq
  | @move route p d before walkable paid ih =>
    rcases List.mem_append.mp hq with hroute | hlast
    · obtain ⟨front, hfront, haffords⟩ := ih hroute
      exact ⟨front, hfront.trans (List.prefix_append _ _), haffords⟩
    · obtain rfl := List.mem_singleton.mp hlast
      exact ⟨_, List.prefix_rfl, .move d before walkable paid⟩

/-- A route that enters no cell twice meets every hazard at most once. -/
theorem hazardsOn_le (h : route.Nodup) : m.hazardsOn route ≤ m.layout.hazards.size := by
  rw [hazardsOn, List.countP_eq_length_filter]
  refine (h.sublist List.filter_sublist).length_le_of_subset ?_
  intro q hq
  simpa [isHazard, OrderedSet.mem_def] using (List.mem_filter.mp hq).2

/-- With a strawberry for each hazard, whatever is reached is reached by a route that can be
afforded. -/
theorem exists_affords_of_reaches (h : Reaches m.layout.Walkable start p) :
    ∃ route, route.Nodup ∧ m.Affords start m.layout.hazards.size route p := by
  induction h with
  | here => exact ⟨[], List.nodup_nil, .here⟩
  | @move q d _ hfree ih =>
    obtain ⟨route, hnodup, haffords⟩ := ih
    by_cases hmem : q.step d ∈ route
    · obtain ⟨front, hfront, hcut⟩ := haffords.exists_front hmem
      exact ⟨front, hnodup.sublist hfront.sublist, hcut⟩
    · have hnodup' : (route ++ [q.step d]).Nodup := by
        rw [List.nodup_append]
        refine ⟨hnodup, by simp, ?_⟩
        rintro a ha b hb rfl
        exact hmem (List.mem_singleton.mp hb ▸ ha)
      refine ⟨_, hnodup', .move d haffords (by simpa [isWalkable] using hfree) ?_⟩
      exact Nat.le_trans (hazardsOn_le hnodup') (Nat.le_add_right _ _)

/-- A start with nothing but walls and bare hazards around it. -/
def Besieged (m : Maze) : Prop :=
  ∀ d, m.isWalkable (m.start.step d) = true →
    m.isHazard (m.start.step d) = true ∧ m.isReward (m.start.step d) = false

/-- With empty hands a besieged start is not left. -/
theorem Besieged.eq_start (h : m.Besieged) (ha : m.Affords m.start 0 route p) :
    route = [] ∧ p = m.start := by
  induction ha with
  | here => exact ⟨rfl, rfl⟩
  | move d _ walkable paid ih =>
    obtain ⟨rfl, rfl⟩ := ih
    obtain ⟨hhazard, hbare⟩ := h d walkable
    rw [hazardsOn_append, rewardsOn_append, if_pos hhazard, if_neg (by simp [hbare])] at paid
    simp [hazardsOn, rewardsOn] at paid

end Maze

namespace Grid

/-- A set of cells on the grid has no more members than there are cells. -/
theorem size_le_of_inBounds {g : Grid} {s : OrderedSet Position} (h : ∀ p ∈ s, g.InBounds p) :
    s.size ≤ g.width * g.height := by
  have hcells : s.toList ⊆ (List.range g.tiles.size).map g.cellAt := by
    intro p hp
    have hindex : g.index p ∈ List.range g.tiles.size := List.mem_range.mpr (index_lt (h p hp))
    exact List.mem_map.mpr ⟨g.index p, hindex, cellAt_index (h p hp)⟩
  simpa [OrderedSet.size, g.size_tiles] using s.nodup.length_le_of_subset hcells

end Grid

namespace Level

/-- What the rules of moves need of the maze of a level. -/
structure Ready (l : Level) (m : Maze) : Prop where
  /-- The maze is that of the level. -/
  layout_eq : m.layout = l.layout
  /-- No hazard lies on a strawberry. -/
  fair : m.Fair
  /-- All strawberries can be held, and one more for each hazard. -/
  few : m.layout.hazards.size + m.layout.rewards.size ≤ maxStrawberries
  /-- There is a goal away from the start, and the start is joined to it. -/
  goal : ∃ goal, m.goal = some goal ∧ goal ≠ m.start ∧
    Reaches m.layout.Walkable m.start goal

/-- Some moves win exactly if a route to the goal can be afforded, whatever is held at first, up to
a strawberry for each hazard. -/
theorem Ready.exists_wins_iff {l : Level} {m : Maze} (h : l.Ready m) {held : Nat}
    (hheld : held ≤ m.layout.hazards.size) (maxDepth : Nat) :
    (∃ moves, m.Wins maxDepth ⟨m.start, held, m.start⟩ moves) ↔
      ∃ goal route, m.goal = some goal ∧ m.Affords m.start held route goal :=
  Maze.exists_wins_iff h.fair (Nat.le_trans (Nat.add_le_add_right hheld _) h.few) m.start maxDepth

/-- A whole grid of a proper size with enemies and strawberries in their places has such a maze. -/
theorem Manned.exists_ready {l : Level} {params : Params} {cap : Nat} (h : Manned l cap)
    (hgrown : l.grid.Grown params) (hwidth : 7 ≤ l.grid.width) (hwidth' : l.grid.width ≤ 25)
    (hheight : l.grid.height = l.grid.width) :
    ∃ m, l.toMaze = .ok m ∧ l.Ready m := by
  have hvalid : l.layout.Valid := by
    refine h.valid_layout hgrown ?_ ?_ ?_ ?_ <;> (try simp only [maxSide]) <;> omega
  refine ⟨⟨l.layout, hvalid⟩, Layout.toMaze_eq_ok_iff.mpr rfl, rfl, ?_, ?_, ?_⟩
  · intro q hq
    exact decide_eq_false (h.hazards_rewards (of_decide_eq_true hq))
  · have hhazards := Grid.size_le_of_inBounds hvalid.inBounds_hazards
    have hrewards := Grid.size_le_of_inBounds hvalid.inBounds_rewards
    have harea := Nat.mul_le_mul hwidth' (hheight ▸ hwidth')
    dsimp only
    simp only [maxStrawberries]
    omega
  · obtain ⟨goal, hgoal, hne, -, hreach⟩ :=
      (h.playable (m := ⟨l.layout, hvalid⟩) hgrown rfl).clear_goal
    exact ⟨goal, hgoal, hne, hreach⟩

section

variable {σ : Type} [WordSource σ] (source : UInt64 → σ) (base : UInt64) (number : UInt32)
  (mode : Mode)

/-- Every level has such a maze. -/
theorem exists_ready_buildFrom :
    ∃ m, (buildFrom source base number mode).toMaze = .ok m ∧
      (buildFrom source base number mode).Ready m := by
  have hsides := Params.sides_forLevel (max number 1).toNat mode
  have hmanned := manned_buildFrom source base number mode
  have hgrid := grid_buildFrom source base number mode
  generalize buildFrom source base number mode = l at hmanned hgrid ⊢
  generalize Params.forLevel (max number 1).toNat mode = params at hsides hmanned hgrid ⊢
  obtain ⟨hwidth, hwidth', hheight⟩ := hsides
  have hgrown : l.grid.Grown params := by
    rw [hgrid]
    exact Grid.grown_grow (by omega) (by omega) (fun _ => by omega) _ _
  have hw := hgrown.width_eq
  have hh := hgrown.height_eq
  exact hmanned.exists_ready hgrown (by omega) (by omega) (by omega)

/-- The maze of a level can be won by a player with empty hands exactly if a route to the goal can
be afforded. A player with as many strawberries as there are hazards can always win it. This holds
of every base seed, number and mode and whatever words the sources of randomness deliver. -/
theorem exists_maze_won_by_routes :
    ∃ m, (buildFrom source base number mode).toMaze = .ok m ∧
      (∀ maxDepth, (∃ moves, m.Wins maxDepth (.atStart m.start) moves) ↔
        ∃ goal route, m.goal = some goal ∧ m.Affords m.start 0 route goal) ∧
      ∀ maxDepth, ∃ moves, m.Wins maxDepth ⟨m.start, m.layout.hazards.size, m.start⟩ moves := by
  obtain ⟨m, hm, hready⟩ := exists_ready_buildFrom source base number mode
  obtain ⟨goal, hgoal, -, hreach⟩ := hready.goal
  obtain ⟨route, -, haffords⟩ := Maze.exists_affords_of_reaches hreach
  refine ⟨m, hm, hready.exists_wins_iff (Nat.zero_le _), fun maxDepth => ?_⟩
  exact (hready.exists_wins_iff (Nat.le_refl _) maxDepth).mpr ⟨goal, route, hgoal, haffords⟩

end

/-- In this level there are walls on three sides of the start and a hazard on the fourth. -/
theorem around_start :
    (build 5 1 .lenient).layout.start.step .up ∈ (build 5 1 .lenient).layout.walls ∧
      (build 5 1 .lenient).layout.start.step .down ∈ (build 5 1 .lenient).layout.walls ∧
      (build 5 1 .lenient).layout.start.step .left ∈ (build 5 1 .lenient).layout.walls ∧
      (build 5 1 .lenient).layout.start.step .right ∈ (build 5 1 .lenient).layout.hazards := by
  decide +kernel

/-- There is a level that no moves win: its player cannot leave the start. -/
theorem exists_lost_maze :
    ∃ m, (build 5 1 .lenient).toMaze = .ok m ∧
      ∀ maxDepth moves, ¬ m.Wins maxDepth (.atStart m.start) moves := by
  obtain ⟨m, hm, hready⟩ := exists_ready_buildFrom ChaCha.ofSeed 5 1 .lenient
  obtain ⟨hup, hdown, hleft, hright⟩ := around_start
  have hlayout : m.layout = (build 5 1 .lenient).layout := hready.layout_eq
  rw [← hlayout] at hup hdown hleft hright
  have hwall {p : Position} (hp : p ∈ m.layout.walls) : ¬ m.isWalkable p = true := fun h =>
    (of_decide_eq_true h).2 hp
  have hhazard : m.isHazard (m.start.step .right) = true := decide_eq_true hright
  have hbesieged : m.Besieged := by
    intro d hwalk
    cases d with
    | up => exact absurd hwalk (hwall hup)
    | down => exact absurd hwalk (hwall hdown)
    | left => exact absurd hwalk (hwall hleft)
    | right => exact ⟨hhazard, hready.fair _ hhazard⟩
  refine ⟨m, hm, fun maxDepth moves hwins => ?_⟩
  obtain ⟨goal, route, hgoal, haffords⟩ :=
    (hready.exists_wins_iff (Nat.zero_le _) maxDepth).mp ⟨moves, hwins⟩
  obtain ⟨goal', hgoal', hne, -⟩ := hready.goal
  obtain rfl : goal = goal' := Option.some.inj (hgoal.symm.trans hgoal')
  exact hne (hbesieged.eq_start haffords).2

end Level

end Labyrinth
