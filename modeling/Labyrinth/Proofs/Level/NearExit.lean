import Labyrinth.Proofs.Level.Perfect

/-!
# Where a near exit is

A near exit is the first plain cell, row by row, from which the start is at least four moves away
and at most a third of the sides together. Carving opens all cells with odd coordinates and none
with even ones, whatever is drawn. So (5, 1) is a near exit, for the cells before it are too near;
on a grid that is too narrow for that it is (3, 3), for of the cells before it only (4, 2) is far
enough. No draw moves a near exit, and it is missing just where a third of the sides is less than
four moves.
-/

namespace Labyrinth

namespace Grid

open Carve

variable {g carved : Grid} {p q : Position} {t : Tile} {params : Params}

/-- Whether a cell is neither too near to another for an exit nor too far away. -/
def FitsExit (g : Grid) (p q : Position) : Prop :=
  nearExitDistance ≤ q.manhattan p ∧ q.manhattan p ≤ (g.width + g.height) / 3

instance (g : Grid) (p q : Position) : Decidable (g.FitsExit p q) :=
  inferInstanceAs (Decidable (_ ∧ _))

/-- The near exit is the first plain cell that fits. -/
theorem nearExit_eq_find? (g : Grid) (p : Position) :
    g.nearExit p = ((g.positionsOf .path).find? (g.FitsExit p ·)).getD p :=
  congrArg (fun fits => ((g.positionsOf .path).find? fits).getD p)
    (funext fun _ => (Bool.decide_and _ _).symm)

/-- A plain cell that fits and has none before it is the near exit. -/
theorem nearExit_eq (hq : g.get? q = some .path) (hfits : g.FitsExit p q)
    (hfirst : ∀ r, r.Before q → g.get? r = some .path → ¬ g.FitsExit p r) : g.nearExit p = q := by
  have horder := g.pairwise_positionsOf .path
  obtain ⟨before, later, hsplit⟩ := List.append_of_mem (mem_positionsOf.mpr hq)
  have hfound : (g.positionsOf .path).find? (g.FitsExit p ·) = some q := by
    refine List.find?_eq_some_iff_append.mpr
      ⟨decide_eq_true hfits, before, later, hsplit, fun r hr => ?_⟩
    have hpath : g.get? r = some .path :=
      mem_positionsOf.mp (hsplit ▸ List.mem_append_left _ hr)
    rw [hsplit, List.pairwise_append] at horder
    simpa using hfirst r (horder.2.2 r hr q List.mem_cons_self) hpath
  rw [nearExit_eq_find?, hfound, Option.getD_some]

/-- Where no plain cell fits, the near exit is the cell that it should be near to. -/
theorem nearExit_eq_self (hnone : ∀ r, g.get? r = some .path → ¬ g.FitsExit p r) :
    g.nearExit p = p := by
  have hnot : (g.positionsOf .path).find? (g.FitsExit p ·) = none := by
    refine List.find?_eq_none.mpr fun r hr => ?_
    simpa using hnone r (mem_positionsOf.mp hr)
  rw [nearExit_eq_find?, hnot, Option.getD_none]

/-- The near exit of a carved grid, by its width. -/
def nearCell (width : Nat) : Position := if 7 ≤ width then ⟨5, 1⟩ else ⟨3, 3⟩

theorem manhattan_nearCell (width : Nat) :
    (nearCell width).manhattan origin = nearExitDistance := by
  unfold nearCell
  split <;> decide

/-- It has odd coordinates. -/
theorem onLattice_nearCell (hwidth : 5 ≤ g.width) (hheight : 5 ≤ g.height) :
    g.OnLattice (nearCell g.width) := by
  unfold nearCell
  split <;> simp only [OnLattice, Interior] <;> omega

/-- A floor cell before it is nearer to the start. The one cell that is not has even coordinates. -/
theorem manhattan_lt_of_before (h : Carved g []) (hspanning : Spanning g)
    (hbefore : q.Before (nearCell g.width)) (hq : g.get? q = some .path) :
    q.manhattan origin < nearExitDistance := by
  have hodd := hspanning.odd hq
  obtain ⟨hleft, hright, htop, -⟩ := ((h.floor q _ hq).resolve_left (by decide)).2
  simp only [nearCell, Position.Before] at hbefore
  simp only [Position.manhattan, origin, nearExitDistance]
  split at hbefore <;> simp only at hbefore <;> omega

/-- On a grid that is large enough the near exit is where the width says. -/
theorem nearExit_placeStart (h : Carved g []) (hspanning : Spanning g) (hwidth : 5 ≤ g.width)
    (hheight : 5 ≤ g.height) (hsides : 12 ≤ g.width + g.height) :
    (g.placeStart origin).nearExit origin = nearCell g.width := by
  have hget (r : Position) := get?_placeStart (q := r) h.begun.1.1.inBounds
  have hdistance := manhattan_nearCell g.width
  have hne : nearCell g.width ≠ origin := by
    intro heq
    rw [heq, Position.manhattan_self] at hdistance
    cases hdistance
  refine nearExit_eq ?_ ?_ fun r hbefore hr => ?_
  · rw [hget, if_neg hne]
    exact h.get?_of_onLattice (onLattice_nearCell hwidth hheight)
  · simp only [FitsExit, hdistance, width_placeStart, height_placeStart, nearExitDistance]
    omega
  · rw [hget] at hr
    split at hr
    · cases hr
    · have := manhattan_lt_of_before h hspanning hbefore hr
      exact fun hfits => Nat.not_le_of_lt this hfits.1

/-- On a grid that is too small there is no near exit. -/
theorem nearExit_placeStart_of_small (hsides : g.width + g.height < 12) :
    (g.placeStart origin).nearExit origin = origin := by
  refine nearExit_eq_self fun r _ hfits => ?_
  simp only [FitsExit, nearExitDistance, width_placeStart, height_placeStart] at hfits
  omega

theorem start_placeEnds (params : Params) (h : Carved g []) :
    (g.placeEnds params).start = origin := by
  rw [placeEnds, start_placeGoal, start_placeStart, headD_positionsOf h]

/-- A near exit is the goal. -/
theorem goal_placeEnds (h : Carved g []) (hshort : params.shortExit = true) :
    (g.placeEnds params).goal = (g.placeStart origin).nearExit origin := by
  rw [placeEnds, headD_positionsOf h, if_pos hshort, goal_placeGoal]

/-- The goal is the start only where a near exit is asked for and the grid is too small. -/
theorem goal_placeEnds_eq_iff (params : Params) (h : Carved g []) (hwidth : 5 ≤ g.width)
    (hheight : 5 ≤ g.height) :
    (g.placeEnds params).goal = origin ↔ params.shortExit = true ∧ g.width + g.height < 12 := by
  constructor
  · intro hgoal
    by_contra hnot
    have hsides : params.shortExit = true → 12 ≤ g.width + g.height :=
      fun hshort => Nat.le_of_not_lt fun hsmall => hnot ⟨hshort, hsmall⟩
    obtain ⟨-, hne, -, -⟩ := exists_placeEnds h hwidth hheight hsides
    exact hne hgoal
  · rintro ⟨hshort, hsmall⟩
    rw [goal_placeEnds h hshort, nearExit_placeStart_of_small hsmall]

/-- Where the goal is not the start, a grid with a near exit is large enough for it. -/
theorem large_of_goal_ne (h : Carved g []) (hwidth : 5 ≤ g.width) (hheight : 5 ≤ g.height)
    (hgoal : (g.placeEnds params).goal ≠ origin) (hshort : params.shortExit = true) :
    12 ≤ g.width + g.height :=
  Nat.le_of_not_lt fun hsmall =>
    hgoal ((goal_placeEnds_eq_iff params h hwidth hheight).mpr ⟨hshort, hsmall⟩)

/-- A goal away from the start gets the tile of an exit, the start gets its own, and all other cells
keep theirs. -/
theorem get?_placeEnds (h : Carved g []) (hwidth : 5 ≤ g.width) (hheight : 5 ≤ g.height) :
    (g.placeEnds params).get? q =
      if q = (g.placeEnds params).goal ∧ (g.placeEnds params).goal ≠ origin then some .exit
      else if q = origin then some .start else g.get? q := by
  by_cases hgoal : (g.placeEnds params).goal = origin
  · obtain ⟨hshort, hsmall⟩ := (goal_placeEnds_eq_iff params h hwidth hheight).mp hgoal
    have hends : g.placeEnds params = { g.placeStart origin with goal := origin } := by
      rw [placeEnds, headD_positionsOf h, if_pos hshort, nearExit_placeStart_of_small hsmall,
        placeGoal, if_pos start_placeStart.symm]
    rw [if_neg fun hboth => hboth.2 hgoal, hends]
    exact get?_placeStart h.begun.1.1.inBounds
  · obtain ⟨-, -, -, hget⟩ :=
      exists_placeEnds h hwidth hheight (large_of_goal_ne h hwidth hheight hgoal)
    rw [hget]
    simp only [ne_eq, hgoal, not_false_eq_true, and_true]

/-- A carved grid has walls and plain floor. -/
theorem get?_carved_ne (h : Carved g []) (hwall : t ≠ .wall) (hpath : t ≠ .path) :
    g.get? q ≠ some t := by
  intro hq
  rcases h.floor q t hq with heq | ⟨heq, -⟩
  · exact hwall heq
  · exact hpath heq

/-- An exit is a goal away from the start. -/
theorem exit_placeEnds_iff (params : Params) (q : Position) (h : Carved g [])
    (hwidth : 5 ≤ g.width) (hheight : 5 ≤ g.height) :
    (g.placeEnds params).get? q = some .exit ↔
      q = (g.placeEnds params).goal ∧ (g.placeEnds params).goal ≠ origin := by
  rw [get?_placeEnds h hwidth hheight]
  split
  · rename_i hexit
    exact iff_of_true rfl hexit
  · rename_i hnot
    refine iff_of_false ?_ hnot
    split
    · decide
    · exact get?_carved_ne h (by decide) (by decide)

/-- Sprinkling moves no tile of a kind that is neither sprinkled nor plain floor. -/
theorem get?_sprinkleOn_iff {cells : List Position} {hazards rewards : Nat}
    (hcells : ∀ p ∈ cells, g.get? p = some .path) (hpath : t ≠ .path) (hhazard : t ≠ .hazard)
    (hreward : t ≠ .reward) :
    (g.sprinkleOn cells hazards rewards).get? q = some t ↔ g.get? q = some t := by
  by_cases hq : g.get? q = some .path
  · have hother : ∀ u, u ≠ t → (some u = some t ↔ some Tile.path = some t) := by
      intro u hu
      simp [hu, hpath.symm]
    rw [get?_sprinkleOn hcells, hq]
    split
    · exact hother _ hreward.symm
    · split
      · exact hother _ hhazard.symm
      · rfl
  · rw [get?_sprinkleOn_of_ne hcells hq]

theorem positionsOf_eq_nil (h : ∀ q, g.get? q ≠ some t) : g.positionsOf t = [] :=
  List.eq_nil_iff_forall_not_mem.mpr fun q hq => h q (mem_positionsOf.mp hq)

theorem positionsOf_eq_singleton (h : ∀ q, g.get? q = some t ↔ q = p) : g.positionsOf t = [p] := by
  refine List.perm_singleton.mp
    ((List.perm_ext_iff_of_nodup (g.nodup_positionsOf t) (List.nodup_singleton p)).mpr fun q => ?_)
  rw [mem_positionsOf, h, List.mem_singleton]

/-- Start and goal of a grid with a near exit. -/
structure NearEnds (params : Params) (g : Grid) : Prop where
  /-- The start is the first cell with odd coordinates. -/
  start_eq : g.start = origin
  /-- On a small grid the start is the goal too, and there is no exit. -/
  small : params.width + params.height < 12 → g.goal = g.start ∧ g.positionsOf .exit = []
  /-- Otherwise the goal is the one exit, at the least distance that an exit may have. -/
  large : 12 ≤ params.width + params.height →
    g.positionsOf .exit = [g.goal] ∧ g.goal.manhattan g.start = 4 ∧
      4 ≤ (params.width + params.height) / 3
  /-- On a wide grid it is in the first row. -/
  wide : 7 ≤ params.width → g.goal = ⟨5, 1⟩
  /-- On a narrow grid that is not small it is in the third row. -/
  narrow : params.width < 7 → 12 ≤ params.width + params.height → g.goal = ⟨3, 3⟩

/-- Whatever is drawn for carving and put on the grid afterwards, a near exit stays where it is. -/
theorem nearEnds_of_isSprinkled (hwidth : 5 ≤ params.width) (hheight : 5 ≤ params.height)
    (hshort : params.shortExit = true)
    (h : Leaves params (filled params.width params.height) carved)
    (hg : IsSprinkled params carved g) : NearEnds params g := by
  obtain ⟨hcarved, hspanning⟩ := h.spanning (by omega) (by omega)
  obtain ⟨hw, hh⟩ : carved.width = params.width ∧ carved.height = params.height := h.sides
  obtain ⟨cells, hazards, rewards, hcells, rfl⟩ := hg
  have hpath : ∀ p ∈ cells, (carved.placeEnds params).get? p = some .path :=
    fun p hp => mem_positionsOf.mp (hcells.mem_iff.mp hp)
  have hstart := start_placeEnds params hcarved
  have hgoal := goal_placeEnds_eq_iff params hcarved (by omega) (by omega)
  have hexit (q : Position) :
      ((carved.placeEnds params).sprinkleOn cells hazards rewards).get? q = some .exit ↔
        q = (carved.placeEnds params).goal ∧ (carved.placeEnds params).goal ≠ origin := by
    rw [get?_sprinkleOn_iff hpath (by decide) (by decide) (by decide),
      exit_placeEnds_iff params q hcarved (by omega) (by omega)]
  have hnear : 12 ≤ params.width + params.height →
      (carved.placeEnds params).goal = nearCell params.width := by
    intro hsides
    rw [goal_placeEnds hcarved hshort,
      nearExit_placeStart hcarved hspanning (by omega) (by omega) (by omega), hw]
  refine ⟨by rw [start_sprinkleOn, hstart], fun hsmall => ?_, fun hlarge => ⟨?_, ?_, ?_⟩,
    fun hwide => ?_, fun hnarrow hlarge => ?_⟩
  · have hsame := hgoal.mpr ⟨hshort, by omega⟩
    refine ⟨by rw [goal_sprinkleOn, start_sprinkleOn, hstart, hsame], ?_⟩
    exact positionsOf_eq_nil fun q hq => ((hexit q).mp hq).2 hsame
  · have hne : (carved.placeEnds params).goal ≠ origin := fun hsame => by
      have := (hgoal.mp hsame).2
      omega
    refine positionsOf_eq_singleton fun q => ?_
    rw [hexit, goal_sprinkleOn, and_iff_left hne]
  · rw [goal_sprinkleOn, start_sprinkleOn, hnear hlarge, hstart]
    exact manhattan_nearCell params.width
  · omega
  · rw [goal_sprinkleOn, hnear (by omega), nearCell, if_pos hwide]
  · rw [goal_sprinkleOn, hnear hlarge, nearCell, if_neg (by omega)]

/-- Whatever is drawn, a near exit is where the sides of the grid say, or missing when they say so.
This holds for all that carving can leave and all that can be put on it, for every source of
randomness, and for every seed. -/
theorem nearEnds_whatever_is_drawn (params : Params) (hwidth : 5 ≤ params.width)
    (hheight : 5 ≤ params.height) (hshort : params.shortExit = true) :
    (∀ carved, Leaves params (filled params.width params.height) carved →
      ∀ g, IsSprinkled params carved g → NearEnds params g) ∧
    (∀ (σ : Type) [WordSource σ] (concepts : List Concept) (s : σ),
      NearEnds params (grow params concepts s)) ∧
    ∀ seed concepts g, generate params seed concepts = .ok g → NearEnds params g := by
  have hsource (σ : Type) [WordSource σ] (concepts : List Concept) (s : σ) :
      NearEnds params (grow params concepts s) :=
    nearEnds_of_isSprinkled hwidth hheight hshort (leaves_carve params _ s)
      (isSprinkled_grow params concepts s)
  refine ⟨fun carved h g => nearEnds_of_isSprinkled hwidth hheight hshort h, hsource, ?_⟩
  intro seed concepts g hg
  rw [generate] at hg
  split at hg
  · cases hg
  · cases hg
    exact hsource _ concepts _

/-- On six by six cells a near exit is in the third row, and on six by five there is none. -/
theorem nearEnds_six_wide :
    let tall := { Params.stress with width := 6, height := 6, shortExit := true }
    let flat := { Params.stress with width := 6, height := 5, shortExit := true }
    5 ≤ tall.width ∧ 5 ≤ tall.height ∧ tall.shortExit = true ∧
      (grow tall [] (ChaCha.ofSeed 7)).goal = ⟨3, 3⟩ ∧
      5 ≤ flat.width ∧ 5 ≤ flat.height ∧ flat.shortExit = true ∧
      (grow flat [] (ChaCha.ofSeed 7)).positionsOf .exit = [] := by
  intro tall flat
  obtain ⟨-, htall, -⟩ := nearEnds_whatever_is_drawn tall (by decide) (by decide) rfl
  obtain ⟨-, hflat, -⟩ := nearEnds_whatever_is_drawn flat (by decide) (by decide) rfl
  refine ⟨by decide, by decide, rfl, ?_, by decide, by decide, rfl, ?_⟩
  · exact (htall _ [] (ChaCha.ofSeed 7)).narrow (by decide) (by decide)
  · exact ((hflat _ [] (ChaCha.ofSeed 7)).small (by decide)).2

end Grid

end Labyrinth
