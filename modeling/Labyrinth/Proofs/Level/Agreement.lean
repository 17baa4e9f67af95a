import Labyrinth.Level.Drawing
import Labyrinth.Proofs.Level.Census
import Labyrinth.Proofs.Run.Safety

/-!
# All views of a grid agree

A cell has its place in the row of tiles by its row and column; the list of cells finds row and
column again by division; the text of the grid is cut off the row of tiles line by line. All three
go through the tiles in the same order (`Grid.cutLines_eq`), so a character of the text is that of
the tile of its cell (`Grid.lines_render_get`). Changes of tiles, start and goal leave the sides as
they were, and so all this holds of every grid that is made by such changes from a filled one.
-/

namespace Labyrinth

/-! ## Lists cut into pieces -/

/-- What is cut has no rest if its length is a multiple of that of a piece. -/
theorem pieces_eq {α : Type} (n k : Nat) (xs : List α) (hlength : xs.length = k * (n + 1)) :
    pieces n xs = (List.range k).map fun i => (xs.drop (i * (n + 1))).take (n + 1) := by
  induction k generalizing xs with
  | zero =>
    rw [Nat.zero_mul, List.length_eq_zero_iff] at hlength
    rw [hlength, pieces]
    rfl
  | succ k ih =>
    cases xs with
    | nil =>
      rw [List.length_nil, Nat.succ_mul] at hlength
      omega
    | cons a as =>
      rw [List.length_cons, Nat.succ_mul] at hlength
      have hrest : (as.drop n).length = k * (n + 1) := by
        rw [List.length_drop]
        omega
      rw [pieces, ih _ hrest, List.range_succ_eq_map, List.map_cons, List.map_map, Nat.zero_mul,
        List.drop_zero, List.take_succ_cons]
      congr 1
      apply List.map_congr_left
      intro i _
      have hplace : (i + 1) * (n + 1) = n + i * (n + 1) + 1 := by
        rw [Nat.succ_mul]
        omega
      simp only [Function.comp_apply, Nat.succ_eq_add_one, hplace, List.drop_succ_cons,
        List.drop_drop]

/-- Lines that are ended one by one are found again. -/
theorem splitOn_flatMap_lines {lines : List (List Char)} (h : ∀ l ∈ lines, '\n' ∉ l) :
    (lines.flatMap (· ++ ['\n'])).splitOn '\n' = lines ++ [[]] := by
  induction lines with
  | nil => rfl
  | cons l lines ih =>
    obtain ⟨hl, hlines⟩ := List.forall_mem_cons.mp h
    have hends : (lines.flatMap (· ++ ['\n'])).splitOnP (· == '\n') = lines ++ [[]] := ih hlines
    have hno : ∀ c ∈ l, (c == '\n') = false := by
      intro c hc
      rw [beq_eq_false_iff_ne]
      rintro rfl
      exact hl hc
    have hbreak := List.splitOnP_append_cons (p := (· == '\n')) l
      (lines.flatMap (· ++ ['\n'])) (beq_self_eq_true '\n')
    rw [List.splitOnP_eq_singleton hno, hends] at hbreak
    rw [List.flatMap_cons, List.append_assoc]
    exact hbreak

theorem Tile.glyph_ne_newline (t : Tile) : t.glyph ≠ '\n' := by cases t <;> decide

namespace Grid

variable {g : Grid} {p : Position}

/-! ## The text of a grid -/

/-- The lines cut off one after another are the rows, from the first to the last. -/
theorem cutLines_eq (hwidth : 0 < g.width) :
    g.cutLines =
      (List.range g.height).map fun y => (g.tiles.toList.drop (y * g.width)).take g.width := by
  have hcut : g.width - 1 + 1 = g.width := by omega
  have hlength : g.tiles.toList.length = g.height * (g.width - 1 + 1) := by
    rw [Array.length_toList, g.size_tiles, hcut, Nat.mul_comm]
  rw [cutLines, pieces_eq _ _ _ hlength, hcut]

/-- Cutting off lines gives the text that the rows give. -/
theorem draw_eq_render (g : Grid) : g.draw = g.render := by
  rw [draw, render, rows]
  split
  · have hnone : g.tiles.toList = [] := by
      rw [← List.length_eq_zero_iff, Array.length_toList, g.size_tiles, ‹g.width = 0›,
        Nat.zero_mul]
    rw [cutLines, hnone, pieces]
    rfl
  · rw [cutLines_eq (by omega), List.map_map, List.map_map]
    congr 1
    apply List.map_congr_left
    intro y _
    have hrow : y * g.width + g.width = (y + 1) * g.width := (Nat.succ_mul _ _).symm
    simp only [Function.comp_apply, Array.toList_extract, List.extract_eq_take_drop, ← hrow,
      Nat.add_sub_cancel_left, String.ofList_append]

/-- The lines of the text are the lines that were cut off, character by character. -/
theorem splitOn_render (g : Grid) :
    g.render.toList.splitOn '\n' = g.cutLines.map (·.map Tile.glyph) ++ [[]] := by
  have htext : g.render.toList = (g.cutLines.map (·.map Tile.glyph)).flatMap (· ++ ['\n']) := by
    rw [← draw_eq_render, draw, String.toList_join, List.flatMap_map, List.flatMap_map]
    simp only [String.toList_ofList]
  rw [htext, splitOn_flatMap_lines]
  intro l hl hmem
  obtain ⟨line, -, rfl⟩ := List.mem_map.mp hl
  obtain ⟨t, -, ht⟩ := List.mem_map.mp hmem
  exact t.glyph_ne_newline ht

/-- Where a cell is, there the text has the character of its tile. -/
theorem lines_render_get (h : g.InBounds p) :
    (g.render.toList.splitOn '\n')[p.y.toNat]?.bind (·[p.x.toNat]?) =
      (g.get? p).map Tile.glyph := by
  obtain ⟨hx, hxw, hy, hyh⟩ := h
  have hcolumn : p.x.toNat < g.width := by omega
  have hrow : p.y.toNat < g.height := by omega
  have hline : (g.cutLines.map (·.map Tile.glyph))[p.y.toNat]? =
      some (((g.tiles.toList.drop (p.y.toNat * g.width)).take g.width).map Tile.glyph) := by
    rw [cutLines_eq (by omega), List.getElem?_map, List.getElem?_map, List.getElem?_range hrow]
    rfl
  have hlength : p.y.toNat < (g.cutLines.map (·.map Tile.glyph)).length := by
    by_contra hover
    rw [List.getElem?_eq_none (by omega)] at hline
    cases hline
  rw [splitOn_render, List.getElem?_append_left hlength, hline, Option.bind_some,
    List.getElem?_map, List.getElem?_take_of_lt hcolumn, List.getElem?_drop,
    Array.getElem?_toList, get?_of_inBounds ⟨hx, hxw, hy, hyh⟩, index]

/-! ## Changes -/

/-- A change leaves the sides as they are. -/
theorem sides_edit (g : Grid) (e : GridEdit) :
    (g.edit e).width = g.width ∧ (g.edit e).height = g.height := by
  cases e with
  | set p t => exact ⟨width_set, height_set⟩
  | placeStart p => exact ⟨width_placeStart, height_placeStart⟩
  | placeGoal p => exact ⟨width_placeGoal, height_placeGoal⟩

/-- So do all changes together. -/
theorem sides_editAll (g : Grid) (edits : List GridEdit) :
    (g.editAll edits).width = g.width ∧ (g.editAll edits).height = g.height := by
  induction edits generalizing g with
  | nil => exact ⟨rfl, rfl⟩
  | cons e edits ih =>
    obtain ⟨hwidth, hheight⟩ := ih (g.edit e)
    obtain ⟨hw, hh⟩ := g.sides_edit e
    exact ⟨hwidth.trans hw, hheight.trans hh⟩

/-- The views of a grid with these sides show the same tiles. -/
structure ViewsAgree (width height : Nat) (g : Grid) : Prop where
  /-- There is one tile for every cell. -/
  size_tiles : g.tiles.size = width * height
  /-- Cells are listed row by row. -/
  before_cells : (g.cells.map (·.1)).Pairwise Position.Before
  /-- Each cell between the sides is listed once, and no other. -/
  count_cells : ∀ p, (g.cells.map (·.1)).count p =
    if 0 ≤ p.x ∧ p.x < width ∧ 0 ≤ p.y ∧ p.y < height then 1 else 0
  /-- Their coordinates have 32 bits. -/
  isInt32_cells : ∀ p ∈ g.cells.map (·.1), p.IsInt32
  /-- A cell is listed with the tile that it has. -/
  mem_cells : ∀ p t, (p, t) ∈ g.cells ↔ g.get? p = some t
  /-- A change gives a cell between the sides the new tile. -/
  get_set : ∀ p t, g.InBounds p → (g.set p t).get? p = some t
  /-- It leaves all other cells as they are. -/
  get_set_of_ne : ∀ p q t, q ≠ p → (g.set p t).get? q = g.get? q
  /-- Outside the grid nothing is changed. -/
  set_of_not_inBounds : ∀ p t, ¬ g.InBounds p → g.set p t = g
  /-- As many cells are listed for a kind of tile as there are such tiles. -/
  count_eq : ∀ t, g.count t = (g.positionsOf t).length
  /-- They are the cells with such a tile. -/
  mem_positionsOf : ∀ p t, p ∈ g.positionsOf t ↔ g.get? p = some t
  /-- The tiles of all kinds together are as many as the cells. -/
  sum_count : (Tile.all.map g.count).sum = width * height
  /-- A cell between the sides has its character in the text, in its line and column. -/
  lines_render : ∀ p, g.InBounds p → ∃ t, g.get? p = some t ∧
    (g.render.toList.splitOn '\n')[p.y.toNat]?.bind (·[p.x.toNat]?) = some t.glyph
  /-- The text may be cut off the row of tiles. -/
  draw_eq : g.draw = g.render

/-- Each cell of a grid is in the list of cells once. -/
theorem count_cells (g : Grid) (p : Position) :
    (g.cells.map (·.1)).count p = if g.InBounds p then 1 else 0 := by
  have hmem : p ∈ g.cells.map (·.1) ↔ g.InBounds p := by
    rw [← exists_get?_iff, List.mem_map]
    constructor
    · rintro ⟨⟨q, t⟩, hq, rfl⟩
      exact ⟨t, mem_cells.mp hq⟩
    · rintro ⟨t, ht⟩
      exact ⟨(p, t), mem_cells.mpr ht, rfl⟩
  have hnodup : (g.cells.map (·.1)).Nodup :=
    (List.pairwise_map.mpr g.pairwise_cells).imp Position.Before.ne
  split
  · exact List.count_eq_one_of_mem hnodup (hmem.mpr ‹_›)
  · exact List.count_eq_zero_of_not_mem (mt hmem.mp ‹_›)

/-- Whatever is changed on a filled grid, wherever its start and its goal are put, all views of it
agree. -/
theorem views_agree_whatever_is_changed (width height : Nat) (hwidth : width ≤ 2147483647)
    (hheight : height ≤ 2147483647) (edits : List GridEdit) :
    ViewsAgree width height ((filled width height).editAll edits) := by
  obtain ⟨hw, hh⟩ := sides_editAll (filled width height) edits
  set g := (filled width height).editAll edits
  have hw : g.width = width := hw
  have hh : g.height = height := hh
  have hinside (p : Position) :
      g.InBounds p ↔ 0 ≤ p.x ∧ p.x < width ∧ 0 ≤ p.y ∧ p.y < height := by
    rw [InBounds, hw, hh]
  refine
    { size_tiles := by rw [g.size_tiles, hw, hh]
      before_cells := List.pairwise_map.mpr g.pairwise_cells
      count_cells := fun p => ?_
      isInt32_cells := fun p hp => ?_
      mem_cells := fun p t => mem_cells
      get_set := fun p t => get?_set_self
      get_set_of_ne := fun p q t hne => ?_
      set_of_not_inBounds := fun p t hp => ?_
      count_eq := g.count_eq_length_positionsOf
      mem_positionsOf := fun p t => mem_positionsOf
      sum_count := by rw [sum_count, hw, hh]
      lines_render := fun p hp => ?_
      draw_eq := g.draw_eq_render }
  · rw [g.count_cells]
    exact if_congr (hinside p) rfl rfl
  · obtain ⟨hx, hxw, hy, hyh⟩ : 0 ≤ p.x ∧ p.x < width ∧ 0 ≤ p.y ∧ p.y < height := by
      rw [← hinside]
      by_contra hout
      rw [← List.count_pos_iff, g.count_cells, if_neg hout] at hp
      omega
    rw [Position.IsInt32]
    omega
  · rw [get?_set, if_neg fun h => hne h.1]
  · rw [set, if_neg hp]
  · obtain ⟨t, ht⟩ := exists_get?_iff.mpr hp
    refine ⟨t, ht, ?_⟩
    rw [lines_render_get hp, ht]
    rfl

/-- On three by two, with the goal below the start and a change outside the grid, the text has the
exit in the second line. -/
theorem views_agree_three_by_two :
    let g := (filled 3 2).editAll
      [.placeStart ⟨1, 0⟩, .set ⟨2, 0⟩ .reward, .placeGoal ⟨1, 1⟩, .set ⟨1, 2⟩ .path]
    3 ≤ 2147483647 ∧ 2 ≤ 2147483647 ∧ ViewsAgree 3 2 g ∧ g.InBounds ⟨1, 1⟩ ∧
      (g.render.toList.splitOn '\n')[1]?.bind (·[1]?) = some 'E' := by
  intro g
  have hagree : ViewsAgree 3 2 g := views_agree_whatever_is_changed 3 2 (by decide) (by decide) _
  have hinside : g.InBounds ⟨1, 1⟩ := by decide
  have hexit : g.get? ⟨1, 1⟩ = some .exit := by decide
  obtain ⟨t, ht, hchar⟩ := hagree.lines_render ⟨1, 1⟩ hinside
  rw [hexit, Option.some.injEq] at ht
  subst ht
  exact ⟨by decide, by decide, hagree, hinside, hchar⟩

end Grid

end Labyrinth
