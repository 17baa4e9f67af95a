import Labyrinth.Level.Goal
import Labyrinth.Proofs.Level.Views

/-!
# Waves of a flood

A wave walls up exactly those of its cells that could still be entered, and leaves all
others as they were. So a flood ends in a cell that could be entered before it, and in a
cell other than its source as soon as the source has a neighbour to flood.
-/

namespace Labyrinth

namespace Grid

variable {g : Grid} {p q : Position}

/-- Walling up a cell closes it and no other. -/
theorem isWalkable_set_wall :
    (g.set p .wall).isWalkable q = true ↔ g.isWalkable q = true ∧ q ≠ p := by
  rw [isWalkable, get?_set]
  by_cases hq : q = p
  · subst hq
    by_cases hin : g.InBounds q
    · simp [hin, Tile.isWalkable]
    · simp [hin, get?]
  · simp [hq, isWalkable]

theorem inBounds_of_isWalkable (h : g.isWalkable p = true) : g.InBounds p := by
  obtain ⟨t, ht, -⟩ := isWalkable_iff.mp h
  exact inBounds_of_get? ht

/-- The neighbours of a cell are the cells of the grid one move away. -/
theorem mem_neighbours : q ∈ g.neighbours p ↔ g.InBounds q ∧ ∃ d : Direction, p.step d = q := by
  simp only [neighbours, Position.neighbours, List.mem_filter, List.mem_map, decide_eq_true_eq]
  constructor
  · rintro ⟨⟨d, -, hd⟩, hin⟩
    exact ⟨hin, d, hd⟩
  · rintro ⟨hin, d, hd⟩
    exact ⟨⟨d, Direction.mem_all d, hd⟩, hin⟩

end Grid

namespace Flood

variable {g : Grid} {p q : Position} {reached ps : List Position}

/-- A wave reaches those of its cells that could be entered. -/
theorem mem_wave :
    q ∈ (wave g reached ps).2 ↔ q ∈ reached ∨ (q ∈ ps ∧ g.isWalkable q = true) := by
  induction ps generalizing g reached with
  | nil => simp [wave]
  | cons p ps ih =>
    unfold wave
    split
    · rename_i hp
      rw [ih, Grid.isWalkable_set_wall, List.mem_cons, List.mem_cons]
      by_cases hq : q = p
      · simp [hq, hp]
      · simp [hq]
    · rename_i hp
      rw [ih, List.mem_cons]
      by_cases hq : q = p
      · simp [hq, hp]
      · simp [hq]

/-- After a wave the other cells can be entered as before. -/
theorem isWalkable_wave :
    (wave g reached ps).1.isWalkable q = true ↔ g.isWalkable q = true ∧ q ∉ ps := by
  induction ps generalizing g reached with
  | nil => simp [wave]
  | cons p ps ih =>
    unfold wave
    split
    · rw [ih, Grid.isWalkable_set_wall, List.mem_cons, not_or, and_assoc]
    · rename_i hp
      rw [ih, List.mem_cons, not_or]
      by_cases hq : q = p
      · simp [hq, hp]
      · simp [hq]

/-- The next wave reaches the neighbours of the last one that could be entered. -/
theorem mem_nextWave :
    q ∈ (nextWave g reached).2 ↔
      g.isWalkable q = true ∧ ∃ p ∈ reached, ∃ d : Direction, p.step d = q := by
  rw [nextWave, mem_wave, List.mem_flatMap]
  constructor
  · rintro (h | ⟨⟨p, hp, hq⟩, hwalkable⟩)
    · cases h
    · exact ⟨hwalkable, p, hp, (Grid.mem_neighbours.mp hq).2⟩
  · rintro ⟨hwalkable, p, hp, hd⟩
    have hin := Grid.inBounds_of_isWalkable hwalkable
    exact .inr ⟨⟨p, hp, Grid.mem_neighbours.mpr ⟨hin, hd⟩⟩, hwalkable⟩

/-- What was reached before a wave stands before it. -/
theorem wave_eq (g : Grid) (reached ps : List Position) :
    wave g reached ps = ((wave g [] ps).1, reached.reverse ++ (wave g [] ps).2) := by
  induction ps generalizing g reached with
  | nil => simp [wave]
  | cons p ps ih =>
    simp only [wave]
    split
    · rw [ih _ (p :: reached), ih _ [p]]
      simp
    · exact ih g reached

/-- A wave over some cells and then others is a wave over the first and one over the others in what
that leaves. -/
theorem wave_append (g : Grid) (ps qs : List Position) :
    wave g [] (ps ++ qs) =
      ((wave (wave g [] ps).1 [] qs).1, (wave g [] ps).2 ++ (wave (wave g [] ps).1 [] qs).2) := by
  induction ps generalizing g with
  | nil => rfl
  | cons p ps ih =>
    rw [List.cons_append]
    simp only [wave]
    split
    · rw [wave_eq _ [p], wave_eq _ [p] ps, ih]
      simp
    · exact ih g

/-- A wave reaches no cell twice. -/
theorem nodup_wave (g : Grid) (ps : List Position) : (wave g [] ps).2.Nodup := by
  induction ps generalizing g with
  | nil => exact List.nodup_nil
  | cons p ps ih =>
    simp only [wave]
    split
    · rw [wave_eq]
      refine List.nodup_cons.mpr ⟨fun hmem => ?_, ih _⟩
      rcases mem_wave.mp hmem with hnil | ⟨-, hopen⟩
      · cases hnil
      · exact (Grid.isWalkable_set_wall.mp hopen).2 rfl
    · exact ih g

/-- A wave leaves the sides of the grid. -/
theorem sides_wave (g : Grid) (reached ps : List Position) :
    (wave g reached ps).1.width = g.width ∧ (wave g reached ps).1.height = g.height := by
  induction ps generalizing g reached with
  | nil => exact ⟨rfl, rfl⟩
  | cons p ps ih =>
    unfold wave
    split
    · exact ⟨(ih _ _).1.trans Grid.width_set, (ih _ _).2.trans Grid.height_set⟩
    · exact ih g reached

/-- A flood ends in the first cell of the wave at hand or in one that could be entered. -/
theorem lastWave_eq_or_isWalkable (g : Grid) (first : Position) (reached : List Position) :
    lastWave g first reached = first ∨ g.isWalkable (lastWave g first reached) = true := by
  fun_induction lastWave g first reached with
  | case1 => exact .inl rfl
  | case2 g first reached p next hnext ih =>
    refine .inr ?_
    rcases ih with heq | hwalkable
    · have hmem : p ∈ (nextWave g reached).2 := by
        rw [hnext]
        exact List.mem_cons_self
      rw [heq]
      exact (mem_nextWave.mp hmem).1
    · rw [nextWave, isWalkable_wave] at hwalkable
      exact hwalkable.1

end Flood

namespace Grid

/-- The farthest cell can be entered and is not the start of the flood, if there is any cell to
go to. -/
theorem farthest_ne {g : Grid} {p : Position} {d : Direction}
    (h : g.isWalkable (p.step d) = true) :
    g.isWalkable (g.farthest p) = true ∧ g.farthest p ≠ p := by
  rw [← isWalkable_set_wall, farthest, Flood.lastWave]
  have hopen : (g.set p .wall).isWalkable (p.step d) = true :=
    isWalkable_set_wall.mpr ⟨h, p.step_ne d⟩
  have hmem : p.step d ∈ (Flood.nextWave (g.set p .wall) [p]).2 :=
    Flood.mem_nextWave.mpr ⟨hopen, p, List.mem_cons_self, d, rfl⟩
  split
  · rename_i hnone
    rw [hnone] at hmem
    cases hmem
  · rename_i q next hnext
    rcases Flood.lastWave_eq_or_isWalkable (Flood.nextWave (g.set p .wall) [p]).1 q (q :: next)
      with heq | hwalkable
    · rw [heq]
      have hq : q ∈ (Flood.nextWave (g.set p .wall) [p]).2 := by
        rw [hnext]
        exact List.mem_cons_self
      exact (Flood.mem_nextWave.mp hq).1
    · rw [Flood.nextWave, Flood.isWalkable_wave] at hwalkable
      exact hwalkable.1

end Grid

end Labyrinth
