import Labyrinth.Position
import Labyrinth.Level.Tile

/-!
# Grids of tiles

A grid keeps its tiles row by row and remembers where its start and goal were put. The
view is `get?`, the tile of a cell if the cell is on the grid. `get?_set` says what a
change does to it. `wallCount` and `walkableCount` count tiles; the `_set` statements say
how a change moves the counts, which is why carving and flooding come to an end.
-/

namespace Labyrinth

/-- A rectangle of tiles. -/
structure Grid where
  /-- The number of columns. -/
  width : Nat
  /-- The number of rows. -/
  height : Nat
  /-- The tiles, row by row. -/
  tiles : Array Tile
  /-- There is one tile for every cell. -/
  size_tiles : tiles.size = width * height
  /-- Where the player begins. -/
  start : Position
  /-- The goal; where no other cell was found, the start. -/
  goal : Position
  deriving DecidableEq

namespace Grid

/-- A grid of one kind of tile, with start and goal in its first cell. -/
def filled (width height : Nat) : Grid :=
  ⟨width, height, Array.replicate (width * height) .wall, by simp, ⟨0, 0⟩, ⟨0, 0⟩⟩

/-- The number of cells. -/
def cellCount (g : Grid) : Nat := g.tiles.size

/-- Whether a cell lies on the grid. -/
def InBounds (g : Grid) (p : Position) : Prop :=
  0 ≤ p.x ∧ p.x < g.width ∧ 0 ≤ p.y ∧ p.y < g.height

instance (g : Grid) (p : Position) : Decidable (g.InBounds p) :=
  inferInstanceAs (Decidable (_ ∧ _))

/-- Whether a cell lies on the grid and not on its border. -/
def Interior (g : Grid) (p : Position) : Prop :=
  1 ≤ p.x ∧ p.x < g.width - 1 ∧ 1 ≤ p.y ∧ p.y < g.height - 1

instance (g : Grid) (p : Position) : Decidable (g.Interior p) :=
  inferInstanceAs (Decidable (_ ∧ _))

/-- The place of a cell in the row of tiles. -/
def index (g : Grid) (p : Position) : Nat := p.y.toNat * g.width + p.x.toNat

/-- The cell at a place in the row of tiles. -/
def cellAt (g : Grid) (i : Nat) : Position := ⟨(i % g.width : Nat), (i / g.width : Nat)⟩

/-- The tile of a cell; nothing outside the grid. -/
def get? (g : Grid) (p : Position) : Option Tile :=
  if g.InBounds p then g.tiles[g.index p]? else none

/-- Whether a cell has this kind of tile. -/
def is (g : Grid) (p : Position) (t : Tile) : Bool := g.get? p == some t

/-- Whether the player may stand on a cell. -/
def isWalkable (g : Grid) (p : Position) : Bool := (g.get? p).any Tile.isWalkable

/-- Changes the tile of a cell; nothing happens outside the grid. -/
def set (g : Grid) (p : Position) (t : Tile) : Grid :=
  if g.InBounds p then
    { g with
      tiles := g.tiles.setIfInBounds (g.index p) t
      size_tiles := by simp [g.size_tiles] }
  else g

/-- Changes the tile of several cells. -/
def setAll (g : Grid) (ps : List Position) (t : Tile) : Grid := ps.foldl (·.set · t) g

/-- Puts the start somewhere. -/
def placeStart (g : Grid) (p : Position) : Grid := { g with start := p }.set p .start

/-- Puts the goal somewhere; a goal on the start leaves the tile of the start. -/
def placeGoal (g : Grid) (p : Position) : Grid :=
  if p = g.start then { g with goal := p } else { g with goal := p }.set p .exit

/-- Every cell with its tile, row by row. -/
def cells (g : Grid) : List (Position × Tile) := g.tiles.toList.mapIdx (fun i t => (g.cellAt i, t))

/-- The cells with this kind of tile, row by row. -/
def positionsOf (g : Grid) (t : Tile) : List Position :=
  (g.cells.filter (·.2 == t)).map (·.1)

/-- The number of cells with this kind of tile. -/
def count (g : Grid) (t : Tile) : Nat := g.tiles.countP (· == t)

/-- The neighbours of a cell that lie on the grid, in the order of the directions. -/
def neighbours (g : Grid) (p : Position) : List Position :=
  p.neighbours.filter (fun q => g.InBounds q)

/-- The characters of the rows of the grid. -/
def rows (g : Grid) : List String :=
  if g.width = 0 then []
  else (List.range g.height).map fun y =>
    String.ofList ((g.tiles.extract (y * g.width) ((y + 1) * g.width)).toList.map Tile.glyph)

/-- The grid as lines of text. -/
def render (g : Grid) : String := String.join (g.rows.map (· ++ "\n"))

/-- The cells with a tile other than a wall. -/
def walkableCount (g : Grid) : Nat := g.tiles.countP Tile.isWalkable

/-- The cells with a wall. -/
def wallCount (g : Grid) : Nat := g.count .wall

theorem index_lt {g : Grid} {p : Position} (h : g.InBounds p) : g.index p < g.tiles.size := by
  obtain ⟨hx, hxw, hy, hyh⟩ := h
  rw [g.size_tiles, index]
  have h1 : p.x.toNat < g.width := by omega
  have h2 : p.y.toNat + 1 ≤ g.height := by omega
  calc p.y.toNat * g.width + p.x.toNat
      < p.y.toNat * g.width + g.width := by omega
    _ = (p.y.toNat + 1) * g.width := (Nat.succ_mul _ _).symm
    _ ≤ g.height * g.width := Nat.mul_le_mul_right _ h2
    _ = g.width * g.height := Nat.mul_comm _ _

/-- A cell on the grid is found again from its place. -/
theorem cellAt_index {g : Grid} {p : Position} (h : g.InBounds p) : g.cellAt (g.index p) = p := by
  obtain ⟨hx, hxw, hy, hyh⟩ := h
  have h1 : p.x.toNat < g.width := by omega
  obtain ⟨x, y⟩ := p
  simp only at hx hxw hy hyh h1
  have hm : (y.toNat * g.width + x.toNat) % g.width = x.toNat := by
    rw [Nat.mul_comm, Nat.mul_add_mod, Nat.mod_eq_of_lt h1]
  have hd : (y.toNat * g.width + x.toNat) / g.width = y.toNat := by
    rw [Nat.mul_comm, Nat.mul_add_div (by omega), Nat.div_eq_of_lt h1, Nat.add_zero]
  simp only [cellAt, index, hm, hd, Position.mk.injEq]
  omega

/-- Different cells of the grid have different places. -/
theorem index_inj {g : Grid} {p q : Position} (hp : g.InBounds p) (hq : g.InBounds q) :
    g.index p = g.index q ↔ p = q :=
  ⟨fun h => by rw [← cellAt_index hp, h, cellAt_index hq], fun h => by rw [h]⟩

theorem inBounds_of_get? {g : Grid} {p : Position} {t : Tile} (h : g.get? p = some t) :
    g.InBounds p := by
  unfold get? at h
  split at h
  · assumption
  · cases h

@[simp] theorem inBounds_set {g : Grid} {p q : Position} {t : Tile} :
    (g.set p t).InBounds q ↔ g.InBounds q := by
  unfold set
  split <;> rfl

/-- A change gives its cell the new tile and leaves all others. -/
theorem get?_set {g : Grid} {p q : Position} {t : Tile} :
    (g.set p t).get? q = if q = p ∧ g.InBounds p then some t else g.get? q := by
  by_cases hp : g.InBounds p
  · by_cases hq : g.InBounds q
    · have hs : (g.set p t).tiles = g.tiles.setIfInBounds (g.index p) t := by
        rw [set, if_pos hp]
      have hi : (g.set p t).index q = g.index q := by
        rw [set, if_pos hp]
        rfl
      rw [get?, if_pos (inBounds_set.mpr hq), hs, hi, get?, if_pos hq,
        Array.getElem?_setIfInBounds]
      by_cases hqp : q = p
      · subst hqp
        simp [hp, index_lt hp]
      · rw [if_neg (fun h => hqp ((index_inj hp hq).mp h).symm), if_neg (fun h => hqp h.1)]
    · rw [get?, if_neg (by rwa [inBounds_set]), if_neg, get?, if_neg hq]
      rintro ⟨rfl, -⟩
      exact hq hp
  · rw [set, if_neg hp, if_neg (fun h => hp h.2)]

theorem countP_set {g : Grid} {p : Position} {t u : Tile} (f : Tile → Bool)
    (h : g.get? p = some u) :
    (g.set p t).tiles.countP f + (if f u then 1 else 0)
      = g.tiles.countP f + (if f t then 1 else 0) := by
  have hp := inBounds_of_get? h
  have hi := index_lt hp
  have hu : g.tiles[g.index p] = u := by
    rw [get?, if_pos hp, Array.getElem?_eq_getElem hi] at h
    exact Option.some.inj h
  have hs : (g.set p t).tiles = g.tiles.set (g.index p) t hi := by
    rw [set, if_pos hp]
    simp only [Array.setIfInBounds, hi, dite_true]
  rw [hs, Array.countP_set, hu]
  by_cases hf : f u
  · have : 0 < g.tiles.countP f := by
      rw [Array.countP_pos_iff]
      exact ⟨u, hu ▸ Array.getElem_mem hi, hf⟩
    simp only [hf, if_true]
    omega
  · simp [hf]

/-- Walling up a walkable cell leaves one fewer. -/
theorem walkableCount_set_wall {g : Grid} {p : Position} (h : g.isWalkable p = true) :
    (g.set p .wall).walkableCount < g.walkableCount := by
  obtain ⟨u, hu, hw⟩ : ∃ u, g.get? p = some u ∧ u.isWalkable = true := by
    simpa [isWalkable, Option.any_eq_true] using h
  have := countP_set (t := Tile.wall) Tile.isWalkable hu
  have hwall : Tile.wall.isWalkable = false := rfl
  simp only [hw, hwall, if_true, Bool.false_eq_true, if_false] at this
  simp only [walkableCount]
  omega

/-- Opening a wall leaves one fewer. -/
theorem wallCount_set_of_is_wall {g : Grid} {p : Position} {t : Tile} (ht : t ≠ .wall)
    (h : g.is p .wall = true) : (g.set p t).wallCount < g.wallCount := by
  have := countP_set (t := t) (· == Tile.wall) (eq_of_beq h)
  simp only [beq_self_eq_true, if_true, beq_iff_eq, ht, if_false] at this
  simp only [wallCount, count]
  omega

/-- Putting a tile other than a wall anywhere adds no wall. -/
theorem wallCount_set_le {g : Grid} {p : Position} {t : Tile} (ht : t ≠ .wall) :
    (g.set p t).wallCount ≤ g.wallCount := by
  cases hu : g.get? p with
  | none =>
    have hp : ¬ g.InBounds p := by
      intro hp
      rw [get?, if_pos hp, Array.getElem?_eq_getElem (index_lt hp)] at hu
      cases hu
    have hs : g.set p t = g := by rw [set, if_neg hp]
    exact Nat.le_of_eq (congrArg wallCount hs)
  | some u =>
    have := countP_set (t := t) (· == Tile.wall) hu
    simp only [beq_iff_eq, ht, if_false] at this
    simp only [wallCount, count]
    omega

end Grid

end Labyrinth
