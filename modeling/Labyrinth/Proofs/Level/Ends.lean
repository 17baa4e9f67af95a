import Labyrinth.Level.Generate
import Labyrinth.Proofs.Level.Flooding
import Labyrinth.Proofs.Level.Spanning

/-!
# Start, goal and what is sprinkled

The start of a carved grid is the first cell with odd coordinates. The goal is another
carved cell: some cell is always far enough for a near exit on a grid that is not tiny, and
a flood always leaves the start. Hazards and strawberries only take plain floor, so they
open and close no cell.
-/

namespace Labyrinth

/-- A cell from which another is reached has a free neighbour. -/
theorem Reaches.exists_step {free : Position → Prop} {p q : Position} (h : Reaches free p q)
    (hne : q ≠ p) : ∃ d : Direction, free (p.step d) := by
  induction h with
  | here => exact absurd rfl hne
  | @move r d h hfree ih =>
    by_cases hr : r = p
    · subst hr
      exact ⟨d, hfree⟩
    · exact ih hr

namespace Grid

open Carve

variable {g : Grid} {p q : Position} {t : Tile} {params : Params}

@[simp] theorem width_placeStart : (g.placeStart p).width = g.width := by simp [placeStart]

@[simp] theorem height_placeStart : (g.placeStart p).height = g.height := by simp [placeStart]

@[simp] theorem start_placeStart : (g.placeStart p).start = p := by simp [placeStart]

/-- The start gets its tile and all other cells keep theirs. -/
theorem get?_placeStart (h : g.InBounds p) :
    (g.placeStart p).get? q = if q = p then some .start else g.get? q := by
  have hp : ({ g with start := p } : Grid).InBounds p := h
  rw [placeStart, get?_set]
  simp only [hp, and_true]
  rfl

/-- A goal away from the start gets its tile and all other cells keep theirs. -/
theorem get?_placeGoal (h : g.InBounds p) (hne : p ≠ g.start) :
    (g.placeGoal p).get? q = if q = p then some .exit else g.get? q := by
  have hp : ({ g with goal := p } : Grid).InBounds p := h
  rw [placeGoal, if_neg hne, get?_set]
  simp only [hp, and_true]
  rfl

@[simp] theorem width_placeGoal : (g.placeGoal p).width = g.width := by
  unfold placeGoal
  split <;> simp

@[simp] theorem height_placeGoal : (g.placeGoal p).height = g.height := by
  unfold placeGoal
  split <;> simp

@[simp] theorem start_placeGoal : (g.placeGoal p).start = g.start := by
  unfold placeGoal
  split <;> simp

@[simp] theorem goal_placeGoal : (g.placeGoal p).goal = p := by
  unfold placeGoal
  split <;> simp

/-- An open cell other than the start is plain floor. -/
theorem get?_of_isWalkable_placeStart (h : Carved g []) (hq : (g.placeStart origin).isWalkable q)
    (hne : q ≠ origin) : g.get? q = some .path := by
  obtain ⟨t, ht, hwall⟩ := isWalkable_iff.mp hq
  rw [get?_placeStart h.begun.1.1.inBounds, if_neg hne] at ht
  rcases h.floor q t ht with rfl | ⟨rfl, -⟩
  · exact absurd rfl hwall
  · exact ht

/-- The first plain cell of a carved grid is where carving began. -/
theorem headD_positionsOf (h : Carved g []) : (g.positionsOf .path).headD origin = origin := by
  have hmem : origin ∈ g.positionsOf .path := mem_positionsOf.mpr h.begun.2
  have horder := g.pairwise_positionsOf .path
  cases hps : g.positionsOf .path with
  | nil => rfl
  | cons p ps =>
    rw [hps] at hmem horder
    rcases List.mem_cons.mp hmem with heq | hlater
    · exact heq.symm
    · have hp : g.get? p = some .path := by
        rw [← mem_positionsOf, hps]
        exact List.mem_cons_self
      rcases h.floor p _ hp with hwall | ⟨-, hin⟩
      · cases hwall
      · have hbefore := List.rel_of_pairwise_cons horder hlater
        simp only [Position.Before, Interior, origin] at hbefore hin
        omega

/-- Some plain cell is as near to the start as an exit may be. -/
theorem exists_nearExit (h : Carved g []) (hwidth : 5 ≤ g.width) (hheight : 5 ≤ g.height) :
    ∃ q, g.get? q = some .path ∧ q.manhattan origin = nearExitDistance := by
  refine ⟨⟨3, 3⟩, h.get?_of_onLattice ?_, by decide⟩
  simp only [OnLattice, Interior]
  omega

/-- A near exit is a plain cell away from the start. -/
theorem nearExit_ne (h : Carved g []) (hwidth : 5 ≤ g.width) (hheight : 5 ≤ g.height)
    (hsides : 12 ≤ g.width + g.height) :
    g.get? ((g.placeStart origin).nearExit origin) = some .path ∧
      (g.placeStart origin).nearExit origin ≠ origin := by
  obtain ⟨q, hq, hnear⟩ := exists_nearExit h hwidth hheight
  have hget := fun r => get?_placeStart (q := r) h.begun.1.1.inBounds
  have hqne : q ≠ origin := by
    rintro rfl
    rw [Position.manhattan_self] at hnear
    cases hnear
  have hqget : (g.placeStart origin).get? q = some .path := by rw [hget, if_neg hqne, hq]
  let fits := fun r : Position => nearExitDistance ≤ r.manhattan origin &&
    r.manhattan origin ≤ ((g.placeStart origin).width + (g.placeStart origin).height) / 3
  have hfits : fits q = true := by
    simp only [fits, hnear, width_placeStart, height_placeStart, nearExitDistance,
      Bool.and_eq_true, decide_eq_true_eq]
    omega
  have hsome : (((g.placeStart origin).positionsOf .path).find? fits).isSome := by
    rw [List.find?_isSome]
    exact ⟨q, mem_positionsOf.mpr hqget, hfits⟩
  obtain ⟨r, hr⟩ := Option.isSome_iff_exists.mp hsome
  have hexit : (g.placeStart origin).nearExit origin = r := by
    simp only [nearExit, fits] at hr ⊢
    rw [hr]
    rfl
  rw [hexit]
  have hrget := mem_positionsOf.mp (List.mem_of_find?_eq_some hr)
  rw [hget] at hrget
  split at hrget
  · cases hrget
  · rename_i hne
    exact ⟨hrget, hne⟩

/-- The farthest cell is a plain cell away from the start. -/
theorem farthest_placeStart_ne (h : Carved g []) (hwidth : 5 ≤ g.width)
    (hheight : 5 ≤ g.height) :
    g.get? ((g.placeStart origin).farthest origin) = some .path ∧
      (g.placeStart origin).farthest origin ≠ origin := by
  have hother : g.get? ⟨3, 1⟩ = some .path := by
    refine h.get?_of_onLattice ?_
    simp only [OnLattice, Interior]
    omega
  obtain ⟨d, hd⟩ := (h.joined _ hother).exists_step (by decide)
  have hopen : (g.placeStart origin).isWalkable (origin.step d) = true := by
    rw [isWalkable_iff, get?_placeStart h.begun.1.1.inBounds, if_neg (origin.step_ne d)]
    exact ⟨.path, hd, by decide⟩
  obtain ⟨hwalkable, hne⟩ := farthest_ne hopen
  exact ⟨get?_of_isWalkable_placeStart h hwalkable hne, hne⟩

/-- Start and goal are put on two plain cells of a carved grid. -/
theorem exists_placeEnds (h : Carved g []) (hwidth : 5 ≤ g.width) (hheight : 5 ≤ g.height)
    (hsides : params.shortExit = true → 12 ≤ g.width + g.height) :
    (g.placeEnds params).start = origin ∧ (g.placeEnds params).goal ≠ origin ∧
      g.get? (g.placeEnds params).goal = some .path ∧
      ∀ q, (g.placeEnds params).get? q =
        if q = (g.placeEnds params).goal then some .exit
        else if q = origin then some .start else g.get? q := by
  have hgoal : ∃ e, g.get? e = some .path ∧ e ≠ origin ∧
      g.placeEnds params = (g.placeStart origin).placeGoal e := by
    rw [placeEnds, headD_positionsOf h]
    split
    · rename_i hshort
      obtain ⟨hpath, hne⟩ := nearExit_ne h hwidth hheight (hsides hshort)
      exact ⟨_, hpath, hne, rfl⟩
    · obtain ⟨hpath, hne⟩ := farthest_placeStart_ne h hwidth hheight
      exact ⟨_, hpath, hne, rfl⟩
  obtain ⟨e, hpath, hne, heq⟩ := hgoal
  rw [heq, goal_placeGoal, start_placeGoal, start_placeStart]
  refine ⟨rfl, hne, hpath, ?_⟩
  intro q
  have hin : (g.placeStart origin).InBounds e := by
    simpa [InBounds] using inBounds_of_get? hpath
  rw [get?_placeGoal hin (by simpa using hne), get?_placeStart h.begun.1.1.inBounds]

section

variable {ps cells : List Position} {hazards rewards : Nat}

@[simp] theorem width_setAll : (g.setAll ps t).width = g.width := by
  induction ps generalizing g with
  | nil => rfl
  | cons p ps ih => exact ih.trans width_set

@[simp] theorem height_setAll : (g.setAll ps t).height = g.height := by
  induction ps generalizing g with
  | nil => rfl
  | cons p ps ih => exact ih.trans height_set

@[simp] theorem start_setAll : (g.setAll ps t).start = g.start := by
  induction ps generalizing g with
  | nil => rfl
  | cons p ps ih => exact ih.trans start_set

@[simp] theorem goal_setAll : (g.setAll ps t).goal = g.goal := by
  induction ps generalizing g with
  | nil => rfl
  | cons p ps ih => exact ih.trans goal_set

/-- Changing several cells gives each of them the new tile and leaves all others. -/
theorem get?_setAll (hps : ∀ p ∈ ps, g.InBounds p) :
    (g.setAll ps t).get? q = if q ∈ ps then some t else g.get? q := by
  induction ps generalizing g with
  | nil => simp [setAll]
  | cons p ps ih =>
    have hp := hps p List.mem_cons_self
    have hrest := ih (g := g.set p t) fun r hr => inBounds_set.mpr
      (hps r (List.mem_cons_of_mem _ hr))
    rw [setAll, List.foldl_cons, ← setAll, hrest, get?_set]
    by_cases hq : q ∈ ps
    · rw [if_pos hq, if_pos (List.mem_cons_of_mem _ hq)]
    · by_cases hqp : q = p
      · subst hqp
        simp [hp]
      · simp [hq, hqp]

@[simp] theorem width_sprinkleOn : (g.sprinkleOn cells hazards rewards).width = g.width := by
  simp [sprinkleOn]

@[simp] theorem height_sprinkleOn : (g.sprinkleOn cells hazards rewards).height = g.height := by
  simp [sprinkleOn]

@[simp] theorem start_sprinkleOn : (g.sprinkleOn cells hazards rewards).start = g.start := by
  simp [sprinkleOn]

@[simp] theorem goal_sprinkleOn : (g.sprinkleOn cells hazards rewards).goal = g.goal := by
  simp [sprinkleOn]

/-- Sprinkling gives some plain cells a hazard or a strawberry. -/
theorem get?_sprinkleOn (hcells : ∀ p ∈ cells, g.get? p = some .path) :
    (g.sprinkleOn cells hazards rewards).get? q =
      if q ∈ (cells.drop hazards).take rewards then some .reward
      else if q ∈ cells.take hazards then some .hazard else g.get? q := by
  have hin : ∀ p ∈ cells, g.InBounds p := fun p hp => inBounds_of_get? (hcells p hp)
  have hfirst : ∀ p ∈ cells.take hazards, g.InBounds p :=
    fun p hp => hin p (List.mem_of_mem_take hp)
  have hsecond : ∀ p ∈ (cells.drop hazards).take rewards,
      (g.setAll (cells.take hazards) .hazard).InBounds p := by
    intro p hp
    simpa [InBounds] using hin p (List.mem_of_mem_drop (List.mem_of_mem_take hp))
  rw [sprinkleOn, get?_setAll hsecond, get?_setAll hfirst]

/-- What is not plain floor stays as it is. -/
theorem get?_sprinkleOn_of_ne (hcells : ∀ p ∈ cells, g.get? p = some .path)
    (hq : g.get? q ≠ some .path) :
    (g.sprinkleOn cells hazards rewards).get? q = g.get? q := by
  have hnot : q ∉ cells := fun hmem => hq (hcells q hmem)
  rw [get?_sprinkleOn hcells, if_neg, if_neg]
  · exact fun hmem => hnot (List.mem_of_mem_take hmem)
  · exact fun hmem => hnot (List.mem_of_mem_drop (List.mem_of_mem_take hmem))

/-- What is plain floor stays open. -/
theorem exists_get?_sprinkleOn (hazards rewards : Nat)
    (hcells : ∀ p ∈ cells, g.get? p = some .path)
    (hq : g.get? q = some .path) :
    ∃ t, (g.sprinkleOn cells hazards rewards).get? q = some t ∧ t ≠ .wall := by
  rw [get?_sprinkleOn hcells]
  split
  · exact ⟨.reward, rfl, by decide⟩
  · split
    · exact ⟨.hazard, rfl, by decide⟩
    · exact ⟨.path, hq, by decide⟩

end

/-- What a whole grid is: floor only inside the border, all of it in reach of the start, and a
start and a goal with their own tiles. -/
structure Grown (params : Params) (g : Grid) : Prop where
  /-- It is as wide as asked for. -/
  width_eq : g.width = params.width
  /-- It is as high as asked for. -/
  height_eq : g.height = params.height
  /-- The border is walls. -/
  floor : ∀ p t, g.get? p = some t → t = .wall ∨ g.Interior p
  /-- The start has its tile. -/
  start_tile : g.get? g.start = some .start
  /-- So has the goal. -/
  goal_tile : g.get? g.goal = some .exit
  /-- All floor is reached from the start. -/
  joined : ∀ p, g.isWalkable p = true → Reaches (g.isWalkable · = true) g.start p

/-- Another tile than a wall on an open cell opens and closes no cell. -/
theorem isWalkable_set (hp : g.isWalkable p = true) (ht : t ≠ .wall) :
    (g.set p t).isWalkable q = true ↔ g.isWalkable q = true := by
  rw [isWalkable_iff, isWalkable_iff, get?_set]
  by_cases hq : q = p
  · subst hq
    rw [if_pos ⟨rfl, inBounds_of_isWalkable hp⟩]
    exact ⟨fun _ => isWalkable_iff.mp hp, fun _ => ⟨t, rfl, ht⟩⟩
  · rw [if_neg fun h => hq h.1]

/-- A near exit is an open cell, or the cell it is near to. -/
theorem nearExit_eq_or_isWalkable (g : Grid) (p : Position) :
    g.nearExit p = p ∨ g.isWalkable (g.nearExit p) = true := by
  rw [nearExit]
  cases hq : (g.positionsOf .path).find? _ with
  | none => exact .inl rfl
  | some q =>
    have hmem := mem_positionsOf.mp (List.mem_of_find?_eq_some hq)
    exact .inr (isWalkable_iff.mpr ⟨.path, hmem, by decide⟩)

/-- The farthest cell is an open cell, or the one that it is far from. -/
theorem farthest_eq_or_isWalkable (g : Grid) (p : Position) :
    g.farthest p = p ∨ g.isWalkable (g.farthest p) = true :=
  (Flood.lastWave_eq_or_isWalkable (g.set p .wall) p [p]).imp_right
    fun h => (isWalkable_set_wall.mp h).1

/-- A goal on an open cell or on the start opens and closes no cell. -/
theorem isWalkable_placeGoal (h : p = g.start ∨ g.isWalkable p = true) :
    (g.placeGoal p).isWalkable q = true ↔ g.isWalkable q = true := by
  unfold placeGoal
  split
  · rfl
  · rename_i hne
    exact isWalkable_set (g := { g with goal := p }) (h.resolve_left hne) (by decide)

/-- The open cells of a carved grid are its floor. -/
theorem isWalkable_carved {way : List Position} (h : Carved g way) :
    g.isWalkable q = true ↔ g.get? q = some .path := by
  rw [isWalkable_iff]
  constructor
  · rintro ⟨t, ht, hwall⟩
    rcases h.floor q t ht with rfl | ⟨rfl, -⟩
    · exact absurd rfl hwall
    · exact ht
  · intro hq
    exact ⟨.path, hq, by decide⟩

/-- Placing start and goal opens and closes no cell. -/
theorem isWalkable_placeEnds (h : Carved g []) :
    (g.placeEnds params).isWalkable q = true ↔ g.get? q = some .path := by
  have horigin : g.isWalkable origin = true := (isWalkable_carved h).mpr h.begun.2
  have hstart {r : Position} : (g.placeStart origin).isWalkable r = true ↔ g.isWalkable r = true :=
    isWalkable_set (g := { g with start := origin }) horigin (by decide)
  rw [placeEnds, headD_positionsOf h, isWalkable_placeGoal, hstart, isWalkable_carved h]
  rw [start_placeStart]
  split
  · exact nearExit_eq_or_isWalkable _ _
  · exact farthest_eq_or_isWalkable _ _

/-- Sprinkling opens and closes no cell. -/
theorem isWalkable_sprinkleOn {cells : List Position} {hazards rewards : Nat}
    (hcells : ∀ p ∈ cells, g.get? p = some .path) :
    (g.sprinkleOn cells hazards rewards).isWalkable q = true ↔ g.isWalkable q = true := by
  rw [isWalkable_iff, isWalkable_iff]
  by_cases hq : g.get? q = some .path
  · have hafter := exists_get?_sprinkleOn hazards rewards hcells hq
    exact ⟨fun _ => ⟨.path, hq, by decide⟩, fun _ => hafter⟩
  · rw [get?_sprinkleOn_of_ne hcells hq]

/-- A carved grid with its start and its goal is whole. -/
theorem grown_placeEnds (h : Carved g []) (hwidth : 5 ≤ g.width) (hheight : 5 ≤ g.height)
    (hsides : params.shortExit = true → 12 ≤ g.width + g.height)
    (hw : g.width = params.width) (hh : g.height = params.height) :
    Grown params (g.placeEnds params) := by
  obtain ⟨hstart, hne, -, hget⟩ := exists_placeEnds h hwidth hheight hsides
  have hopen (q : Position) : (g.placeEnds params).isWalkable q = true ↔ g.get? q = some .path :=
    isWalkable_placeEnds h
  have hkeepsWidth : (g.placeEnds params).width = g.width := by simp [placeEnds]
  have hkeepsHeight : (g.placeEnds params).height = g.height := by simp [placeEnds]
  refine ⟨hkeepsWidth.trans hw, hkeepsHeight.trans hh, ?_, ?_, ?_, ?_⟩
  · intro p t ht
    by_cases hwall : t = .wall
    · exact .inl hwall
    · have hp := (hopen p).mp (isWalkable_iff.mpr ⟨t, ht, hwall⟩)
      rcases h.floor p _ hp with hwall' | ⟨-, hin⟩
      · cases hwall'
      · exact .inr (by simpa [Interior, hkeepsWidth, hkeepsHeight] using hin)
  · rw [hstart, hget, if_neg (Ne.symm hne), if_pos rfl]
  · rw [hget, if_pos rfl]
  · intro p hp
    rw [hstart]
    exact (h.joined p ((hopen p).mp hp)).mono fun r hr => (hopen r).mpr hr

/-- Sprinkling keeps a grid whole. -/
theorem Grown.sprinkleOn {cells : List Position} (h : Grown params g)
    (hcells : ∀ p ∈ cells, g.get? p = some .path) (hazards rewards : Nat) :
    Grown params (g.sprinkleOn cells hazards rewards) := by
  have hopen (q : Position) :
      (g.sprinkleOn cells hazards rewards).isWalkable q = true ↔ g.isWalkable q = true :=
    isWalkable_sprinkleOn hcells
  have hstart : g.get? g.start ≠ some .path := by rw [h.start_tile]; decide
  have hgoal : g.get? g.goal ≠ some .path := by rw [h.goal_tile]; decide
  refine ⟨width_sprinkleOn.trans h.width_eq, height_sprinkleOn.trans h.height_eq, ?_, ?_, ?_, ?_⟩
  · intro p t ht
    by_cases hwall : t = .wall
    · exact .inl hwall
    · obtain ⟨u, hu, huwall⟩ := isWalkable_iff.mp
        ((hopen p).mp (isWalkable_iff.mpr ⟨t, ht, hwall⟩))
      have hin := (h.floor p u hu).resolve_left huwall
      exact .inr (by simpa [Interior] using hin)
  · rw [start_sprinkleOn, get?_sprinkleOn_of_ne hcells hstart]
    exact h.start_tile
  · rw [goal_sprinkleOn, get?_sprinkleOn_of_ne hcells hgoal]
    exact h.goal_tile
  · intro p hp
    rw [start_sprinkleOn]
    exact (h.joined p ((hopen p).mp hp)).mono fun r hr => (hopen r).mpr hr

/-- Every grid is whole, whatever is drawn for it. -/
theorem grown_grow {σ : Type} [WordSource σ] (hwidth : 5 ≤ params.width)
    (hheight : 5 ≤ params.height)
    (hsides : params.shortExit = true → 12 ≤ params.width + params.height)
    (concepts : List Concept) (s : σ) : Grown params (grow params concepts s) := by
  have hleaves := leaves_carve params (filled params.width params.height) s
  obtain ⟨hcarved, -⟩ := hleaves.spanning (by omega) (by omega)
  obtain ⟨hw, hh⟩ := hleaves.sides
  have hwhole := grown_placeEnds hcarved (by rw [hw]; exact hwidth) (by rw [hh]; exact hheight)
    (by rw [hw, hh]; exact hsides) hw hh
  refine hwhole.sprinkleOn ?_ _ _
  intro p hp
  exact mem_positionsOf.mp ((perm_shuffle _ _).mem_iff.mp hp)

end Grid

end Labyrinth
