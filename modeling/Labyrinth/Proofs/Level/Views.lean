import Labyrinth.Level.Grid

/-!
# What a grid shows

A grid is known by the tile of each cell. The list of cells has every cell of the grid
with its tile, row by row, so the cells of one kind are found in it exactly, each once
and in that order. A change of some cells is read off the same way.
-/

namespace Labyrinth

/-- A cell comes before another, row by row. -/
def Position.Before (p q : Position) : Prop := p.y < q.y ∨ (p.y = q.y ∧ p.x < q.x)

theorem Position.Before.ne {p q : Position} (h : p.Before q) : p ≠ q := by
  rintro rfl
  rcases h with h | h <;> omega

namespace Grid

variable {g : Grid} {p q : Position} {t u : Tile}

/-- Every place in the row of tiles is that of a cell. -/
theorem inBounds_cellAt {i : Nat} (hi : i < g.tiles.size) : g.InBounds (g.cellAt i) := by
  rw [g.size_tiles] at hi
  have hwidth : 0 < g.width := Nat.pos_of_ne_zero fun h => by simp [h] at hi
  have hx : i % g.width < g.width := Nat.mod_lt _ hwidth
  have hy : i / g.width < g.height := Nat.div_lt_of_lt_mul hi
  exact ⟨Int.natCast_nonneg _, Int.ofNat_lt.mpr hx, Int.natCast_nonneg _, Int.ofNat_lt.mpr hy⟩

/-- A place in the row of tiles is found again from its cell. -/
theorem index_cellAt (g : Grid) (i : Nat) : g.index (g.cellAt i) = i := by
  simp only [index, cellAt, Int.toNat_natCast]
  rw [Nat.mul_comm]
  exact Nat.div_add_mod i g.width

theorem get?_of_inBounds (h : g.InBounds p) : g.get? p = g.tiles[g.index p]? := by
  rw [get?, if_pos h]

theorem get?_cellAt {i : Nat} (hi : i < g.tiles.size) :
    g.get? (g.cellAt i) = some g.tiles[i] := by
  rw [get?_of_inBounds (inBounds_cellAt hi), index_cellAt, Array.getElem?_eq_getElem hi]

/-- A cell has a tile exactly when it lies on the grid. -/
theorem exists_get?_iff : (∃ t, g.get? p = some t) ↔ g.InBounds p := by
  constructor
  · rintro ⟨t, ht⟩
    exact inBounds_of_get? ht
  · intro h
    rw [get?_of_inBounds h, Array.getElem?_eq_getElem (index_lt h)]
    exact ⟨_, rfl⟩

/-- The list of cells has each cell with its tile, and nothing else. -/
theorem mem_cells : (p, t) ∈ g.cells ↔ g.get? p = some t := by
  rw [cells, List.mem_mapIdx]
  constructor
  · rintro ⟨i, hi, he⟩
    rw [Array.length_toList] at hi
    rw [Array.getElem_toList] at he
    cases he
    exact get?_cellAt hi
  · intro h
    have hp := inBounds_of_get? h
    refine ⟨g.index p, by simpa using index_lt hp, ?_⟩
    rw [get?_of_inBounds hp, Array.getElem?_eq_getElem (index_lt hp)] at h
    rw [cellAt_index hp, Array.getElem_toList, Option.some.inj h]

/-- The cells of one kind are those with that tile. -/
@[simp] theorem mem_positionsOf : p ∈ g.positionsOf t ↔ g.get? p = some t := by
  simp only [positionsOf, List.mem_map, List.mem_filter, beq_iff_eq]
  constructor
  · rintro ⟨⟨q, u⟩, ⟨hmem, rfl⟩, rfl⟩
    exact mem_cells.mp hmem
  · intro h
    exact ⟨(p, t), ⟨mem_cells.mpr h, rfl⟩, rfl⟩

/-- Later places belong to later cells. -/
theorem before_cellAt {i j : Nat} (hij : i < j) : (g.cellAt i).Before (g.cellAt j) := by
  have hdiv : i / g.width ≤ j / g.width := Nat.div_le_div_right (Nat.le_of_lt hij)
  have hi := Nat.div_add_mod i g.width
  have hj := Nat.div_add_mod j g.width
  simp only [Position.Before, cellAt]
  by_cases hrow : i / g.width = j / g.width
  · rw [hrow] at hi
    omega
  · omega

/-- The list of cells goes row by row. -/
theorem pairwise_cells (g : Grid) : g.cells.Pairwise fun a b => a.1.Before b.1 := by
  rw [List.pairwise_iff_getElem]
  intro i j hi hj hij
  simp only [cells, List.getElem_mapIdx]
  exact before_cellAt hij

/-- So does the list of cells of one kind. -/
theorem pairwise_positionsOf (g : Grid) (t : Tile) :
    (g.positionsOf t).Pairwise Position.Before := by
  rw [positionsOf, List.pairwise_map]
  exact g.pairwise_cells.filter _

/-- No cell of a kind is listed twice. -/
theorem nodup_positionsOf (g : Grid) (t : Tile) : (g.positionsOf t).Nodup :=
  (g.pairwise_positionsOf t).imp Position.Before.ne

/-- The cells of a kind are listed as often as their tile occurs. -/
theorem count_eq_length_positionsOf (g : Grid) (t : Tile) :
    g.count t = (g.positionsOf t).length := by
  have htiles : g.cells.map (·.2) = g.tiles.toList :=
    List.ext_getElem (by simp [cells]) fun i _ _ => by simp [cells]
  rw [count, ← Array.countP_toList, ← htiles, List.countP_map, positionsOf, List.length_map,
    List.countP_eq_length_filter]
  rfl

@[simp] theorem width_set : (g.set p t).width = g.width := by
  unfold set
  split <;> rfl

@[simp] theorem height_set : (g.set p t).height = g.height := by
  unfold set
  split <;> rfl

@[simp] theorem start_set : (g.set p t).start = g.start := by
  unfold set
  split <;> rfl

@[simp] theorem goal_set : (g.set p t).goal = g.goal := by
  unfold set
  split <;> rfl

/-- A changed cell that is on the grid has the new tile. -/
theorem get?_set_self (h : g.InBounds p) : (g.set p t).get? p = some t := by
  rw [get?_set, if_pos ⟨rfl, h⟩]

/-- A cell can be entered when it has a tile that is no wall. -/
theorem isWalkable_iff : g.isWalkable p = true ↔ ∃ t, g.get? p = some t ∧ t ≠ .wall := by
  simp [isWalkable, Option.any_eq_true, Tile.isWalkable]

theorem is_iff : g.is p t = true ↔ g.get? p = some t := by simp [is]

end Grid

end Labyrinth
