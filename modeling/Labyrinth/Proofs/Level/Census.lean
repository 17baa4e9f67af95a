import Labyrinth.Proofs.Level.NearExit

/-!
# How many tiles of each kind there are

A grid has as many tiles of a kind as there are cells with that tile (`count_eq_length`), and every
cell has one of the six kinds. Carving opens a fixed number of cells, start and goal take one each
if there are two, and what is sprinkled takes a share of those left. So no draw has a say in how
many tiles of a kind there are, only in where they are.
-/

namespace Labyrinth

/-- Parameters with which a grid can be generated want sides of five cells or more. -/
theorem Params.sides_of_fault?_eq_none {params : Params} (h : params.fault? = none) :
    5 ≤ params.width ∧ 5 ≤ params.height := by
  have hsize : params.sizeFault? = none := by
    simp only [Params.fault?, Option.or_eq_none_iff] at h
    exact h.1.1.1.1.1.1
  rw [Params.sizeFault?] at hsize
  split at hsize
  · cases hsize
  · omega

namespace Grid

open Carve

variable {g carved : Grid} {p q : Position} {t : Tile} {params : Params} {concepts : List Concept}

/-- A list of the cells of a kind without repetition is as long as there are such tiles. -/
theorem count_eq_length {ps : List Position} (hnodup : ps.Nodup)
    (hmem : ∀ q, g.get? q = some t ↔ q ∈ ps) : g.count t = ps.length := by
  rw [count_eq_length_positionsOf]
  refine ((List.perm_ext_iff_of_nodup (g.nodup_positionsOf t) hnodup).mpr fun q => ?_).length_eq
  rw [mem_positionsOf, hmem]

/-- Every cell has a tile of one of the kinds. -/
theorem sum_count (g : Grid) : (Tile.all.map g.count).sum = g.width * g.height := by
  have hall (ts : List Tile) :
      (Tile.all.map fun t => ts.countP (· == t)).sum = ts.length := by
    induction ts with
    | nil => rfl
    | cons t ts ih =>
      rw [List.length_cons, ← ih]
      cases t <;>
        simp only [Tile.all, List.map_cons, List.map_nil, List.sum_cons, List.sum_nil,
          List.countP_cons] <;> simp <;> omega
  rw [← g.size_tiles, ← Array.length_toList, ← hall g.tiles.toList]
  simp only [Array.countP_toList]
  rfl

/-- Carving opens all cells with odd coordinates and one fewer of the others. -/
theorem length_positionsOf_carved (h : Carved g []) (hspanning : Spanning g) :
    (g.positionsOf .path).length + 1 = 2 * ((g.width - 1) / 2 * ((g.height - 1) / 2)) := by
  have hfloor : {p | g.IsFloor p} = ↑(g.positionsOf .path).toFinset := by
    ext p
    simp [IsFloor]
  have hlength : (g.positionsOf .path).length = {p | g.IsFloor p}.ncard := by
    rw [hfloor, Set.ncard_coe_finset, List.toFinset_card_of_nodup (g.nodup_positionsOf .path)]
  have hsplit : {p | g.IsFloor p} =
      {p | g.IsFloor p ∧ g.OnLattice p} ∪ {p | g.IsFloor p ∧ ¬ g.OnLattice p} := by
    ext p
    by_cases hp : g.OnLattice p <;> simp [hp]
  have hdisjoint : Disjoint {p | g.IsFloor p ∧ g.OnLattice p}
      {p | g.IsFloor p ∧ ¬ g.OnLattice p} :=
    Set.disjoint_left.mpr fun p hp hoff => hoff.2 hp.2
  have hall : {p | g.IsFloor p ∧ g.OnLattice p} = {p | g.OnLattice p} :=
    Set.ext fun p => ⟨And.right, fun hp => ⟨h.get?_of_onLattice hp, hp⟩⟩
  have hcounted := hspanning.counted
  rw [hlength, hsplit, Set.ncard_union_eq hdisjoint (g.finite_floor _) (g.finite_floor _)]
  rw [hall, ncard_onLattice] at hcounted ⊢
  omega

/-- Start and goal are plain floor before they are placed. -/
theorem get?_goal_placeEnds (h : Carved g []) (hwidth : 5 ≤ g.width) (hheight : 5 ≤ g.height) :
    g.get? (g.placeEnds params).goal = some .path := by
  by_cases hgoal : (g.placeEnds params).goal = origin
  · rw [hgoal]
    exact h.begun.2
  · have hsides := large_of_goal_ne h hwidth hheight hgoal
    exact (exists_placeEnds h hwidth hheight hsides).2.2.1

/-- The start is where its tile is. -/
theorem start_placeEnds_iff (h : Carved g []) (hwidth : 5 ≤ g.width) (hheight : 5 ≤ g.height) :
    (g.placeEnds params).get? q = some .start ↔ q = origin := by
  rw [get?_placeEnds h hwidth hheight]
  split
  · rename_i hexit
    refine iff_of_false (by decide) fun heq => ?_
    exact hexit.2 (hexit.1.symm.trans heq)
  · split
    · rename_i heq
      exact iff_of_true rfl heq
    · rename_i hne
      exact iff_of_false (get?_carved_ne h (by decide) (by decide)) hne

/-- All other floor stays plain. -/
theorem path_placeEnds_iff (params : Params) (q : Position) (h : Carved g [])
    (hwidth : 5 ≤ g.width) (hheight : 5 ≤ g.height) :
    (g.placeEnds params).get? q = some .path ↔
      g.get? q = some .path ∧ q ≠ origin ∧ q ≠ (g.placeEnds params).goal := by
  rw [get?_placeEnds h hwidth hheight]
  split
  · rename_i hexit
    exact iff_of_false (by decide) fun hpath => hpath.2.2 hexit.1
  · rename_i hnot
    split
    · rename_i heq
      exact iff_of_false (by decide) fun hpath => hpath.2.1 heq
    · rename_i hne
      refine (and_iff_left ⟨hne, fun heq => hnot ⟨heq, ?_⟩⟩).symm
      exact fun hgoal => hne (heq.trans hgoal)

/-- The start and the goal, once if they are the same cell. -/
def endCells (g : Grid) (params : Params) : List Position :=
  if (g.placeEnds params).goal = origin then [origin] else [origin, (g.placeEnds params).goal]

theorem mem_endCells : q ∈ g.endCells params ↔ q = origin ∨ q = (g.placeEnds params).goal := by
  rw [endCells]
  split
  · rename_i hgoal
    rw [hgoal, List.mem_singleton, or_self]
  · rw [List.mem_pair]

theorem nodup_endCells : (g.endCells params).Nodup := by
  rw [endCells]
  split
  · exact List.nodup_singleton _
  · rename_i hgoal
    simpa using Ne.symm hgoal

/-- The floor of a carved grid is the start, the goal, and what is still plain once these are
placed. -/
theorem perm_endCells_append (params : Params) (h : Carved g []) (hwidth : 5 ≤ g.width)
    (hheight : 5 ≤ g.height) :
    (g.endCells params ++ (g.placeEnds params).positionsOf .path).Perm (g.positionsOf .path) := by
  have hplain (q : Position) := path_placeEnds_iff params q h hwidth hheight
  have hnodup : (g.endCells params ++ (g.placeEnds params).positionsOf .path).Nodup := by
    refine List.nodup_append.mpr ⟨nodup_endCells, nodup_positionsOf _ _, ?_⟩
    rintro q hq r hr rfl
    have hr := (hplain q).mp (mem_positionsOf.mp hr)
    rcases mem_endCells.mp hq with heq | heq
    · exact hr.2.1 heq
    · exact hr.2.2 heq
  refine (List.perm_ext_iff_of_nodup hnodup (nodup_positionsOf _ _)).mpr fun q => ?_
  rw [List.mem_append, mem_endCells, mem_positionsOf, mem_positionsOf, hplain]
  constructor
  · rintro ((rfl | rfl) | hpath)
    · exact h.begun.2
    · exact get?_goal_placeEnds h hwidth hheight
    · exact hpath.1
  · intro hpath
    by_cases hend : q = origin ∨ q = (g.placeEnds params).goal
    · exact .inl hend
    · exact .inr ⟨hpath, not_or.mp hend⟩

/-- Sprinkling makes no more and no fewer tiles of any other kind. -/
theorem count_sprinkleOn {cells : List Position} {hazards rewards : Nat}
    (hcells : ∀ p ∈ cells, g.get? p = some .path) (hpath : t ≠ .path) (hhazard : t ≠ .hazard)
    (hreward : t ≠ .reward) : (g.sprinkleOn cells hazards rewards).count t = g.count t := by
  rw [g.count_eq_length_positionsOf]
  refine count_eq_length (g.nodup_positionsOf t) fun q => ?_
  rw [get?_sprinkleOn_iff hcells hpath hhazard hreward, mem_positionsOf]

/-- A list that is long enough has a first part and a second of given lengths. -/
theorem exists_parts {cells : List Position} {m n : Nat} (h : m + n ≤ cells.length) :
    ∃ first second rest, cells = first ++ (second ++ rest) ∧ first.length = m ∧
      second.length = n ∧ rest.length = cells.length - (m + n) := by
  refine ⟨cells.take m, (cells.drop m).take n, (cells.drop m).drop n, ?_, ?_, ?_, ?_⟩
  · rw [List.take_append_drop, List.take_append_drop]
  all_goals
    simp only [List.length_take, List.length_drop]
    omega

/-- Some cells get hazards, the next ones strawberries, and the rest stay plain. -/
theorem counts_sprinkleOn {first second rest : List Position}
    (hcells : (first ++ (second ++ rest)).Perm (g.positionsOf .path))
    (hhazard : ∀ q, g.get? q ≠ some .hazard) (hreward : ∀ q, g.get? q ≠ some .reward) :
    let sprinkled := g.sprinkleOn (first ++ (second ++ rest)) first.length second.length
    sprinkled.count .hazard = first.length ∧ sprinkled.count .reward = second.length ∧
      sprinkled.count .path = rest.length := by
  intro sprinkled
  have hpath (q : Position) : q ∈ first ++ (second ++ rest) ↔ g.get? q = some .path :=
    hcells.mem_iff.trans mem_positionsOf
  have hget (q : Position) : sprinkled.get? q =
      if q ∈ second then some .reward else if q ∈ first then some .hazard else g.get? q := by
    rw [get?_sprinkleOn fun p hp => (hpath p).mp hp, List.drop_left, List.take_left,
      List.take_left]
  obtain ⟨hfirst, hothers, hdisjoint⟩ :=
    List.nodup_append.mp (hcells.nodup_iff.mpr (g.nodup_positionsOf .path))
  obtain ⟨hsecond, hrest, hapart⟩ := List.nodup_append.mp hothers
  refine ⟨count_eq_length hfirst fun q => ?_, count_eq_length hsecond fun q => ?_,
    count_eq_length hrest fun q => ?_⟩
  · rw [hget]
    split
    · rename_i hq
      exact iff_of_false (by decide) fun hq' => hdisjoint q hq' q (List.mem_append_left _ hq) rfl
    · split
      · exact iff_of_true rfl ‹_›
      · exact iff_of_false (hhazard q) ‹_›
  · rw [hget]
    split
    · exact iff_of_true rfl ‹_›
    · refine iff_of_false ?_ ‹_›
      split
      · decide
      · exact hreward q
  · rw [hget]
    split
    · rename_i hq
      exact iff_of_false (by decide) fun hq' => hapart q hq q hq' rfl
    · split
      · rename_i hq
        exact iff_of_false (by decide) fun hq' =>
          hdisjoint q hq q (List.mem_append_right _ hq') rfl
      · rename_i hsecond hfirst
        rw [← hpath, List.mem_append, List.mem_append, or_iff_right hfirst, or_iff_right hsecond]

end Grid

namespace Params

/-- The number of cells with odd coordinates. -/
def latticeCount (p : Params) : Nat := (p.width - 1) / 2 * ((p.height - 1) / 2)

/-- The number of exits: one, or none where a near exit has no place. -/
def exitCount (p : Params) : Nat := if p.shortExit = true ∧ p.width + p.height < 12 then 0 else 1

/-- The number of plain cells that are left when start and goal are placed. -/
def plainCount (p : Params) : Nat := 2 * p.latticeCount - 2 - p.exitCount

/-- The number of hazards. -/
def hazardCount (p : Params) (concepts : List Concept) : Nat :=
  shareOf p.plainCount (p.densities concepts).1

/-- The number of strawberries: their share, or what the hazards leave. -/
def rewardCount (p : Params) (concepts : List Concept) : Nat :=
  min (shareOf p.plainCount (p.densities concepts).2) (p.plainCount - p.hazardCount concepts)

/-- There is always room for start and goal. -/
theorem four_le_latticeCount {p : Params} (hwidth : 5 ≤ p.width) (hheight : 5 ≤ p.height) :
    4 ≤ p.latticeCount :=
  Nat.mul_le_mul (by omega : 2 ≤ (p.width - 1) / 2) (by omega : 2 ≤ (p.height - 1) / 2)

theorem exitCount_le_one (p : Params) : p.exitCount ≤ 1 := by
  unfold exitCount
  split <;> decide

theorem exitCount_eq_one (p : Params) (h : p.exitCount ≠ 0) : p.exitCount = 1 := by
  have := p.exitCount_le_one
  omega

/-- Hazards and strawberries fit on the plain cells. -/
theorem hazardCount_add_rewardCount_le {p : Params} {concepts : List Concept}
    (h : p.hazardCount concepts ≤ p.plainCount) :
    p.hazardCount concepts + p.rewardCount concepts ≤ p.plainCount := by
  have : p.rewardCount concepts ≤ p.plainCount - p.hazardCount concepts := Nat.min_le_right _ _
  omega

end Params

namespace Grid

open Carve

variable {g carved : Grid} {q : Position} {t : Tile} {params : Params} {concepts : List Concept}

/-- How many tiles of each kind a grid has, and where start and goal are. -/
structure Census (params : Params) (concepts : List Concept) (g : Grid) : Prop where
  /-- All cells are walls but those that carving opens. -/
  walls : g.count .wall = params.width * params.height - (2 * params.latticeCount - 1)
  /-- There is one start. -/
  starts : g.count .start = 1
  /-- It is the first cell with odd coordinates. -/
  start_tile : g.start = ⟨1, 1⟩ ∧ g.get? g.start = some .start
  /-- There is one exit, or none. -/
  exits : g.count .exit = params.exitCount
  /-- The exit is the goal; where there is none, the start is. -/
  goal_tile : if params.exitCount = 0 then g.goal = g.start else g.get? g.goal = some .exit
  /-- Hazards have their share of the plain cells. -/
  hazards : g.count .hazard = params.hazardCount concepts
  /-- Strawberries have theirs, or what the hazards leave. -/
  rewards : g.count .reward = params.rewardCount concepts
  /-- The others stay plain. -/
  paths : g.count .path =
    params.plainCount - (params.hazardCount concepts + params.rewardCount concepts)

/-- What a grid is when start and goal are placed and nothing is sprinkled yet. -/
structure Placed (params : Params) (g : Grid) : Prop where
  /-- It is as wide as asked for. -/
  width_eq : g.width = params.width
  /-- It is as high as asked for. -/
  height_eq : g.height = params.height
  /-- The start is the first cell with odd coordinates. -/
  start_eq : g.start = origin
  /-- It is where the tile of a start is. -/
  start_iff : ∀ q, g.get? q = some .start ↔ q = origin
  /-- An exit is a goal away from the start. -/
  exit_iff : ∀ q, g.get? q = some .exit ↔ q = g.goal ∧ g.goal ≠ origin
  /-- Where the goal is the start there is no exit. -/
  goal_iff : g.goal = origin ↔ params.exitCount = 0
  /-- There are no hazards. -/
  ne_hazard : ∀ q, g.get? q ≠ some .hazard
  /-- There are no strawberries. -/
  ne_reward : ∀ q, g.get? q ≠ some .reward
  /-- So many cells are plain. -/
  plain : (g.positionsOf .path).length = params.plainCount

/-- Placing start and goal leaves so many plain cells. -/
theorem length_positionsOf_placeEnds (h : Carved g []) (hspanning : Spanning g)
    (hwidth : g.width = params.width) (hheight : g.height = params.height)
    (hw : 5 ≤ params.width) (hh : 5 ≤ params.height)
    (hgoal : (g.placeEnds params).goal = origin ↔ params.exitCount = 0) :
    ((g.placeEnds params).positionsOf .path).length = params.plainCount := by
  have hcarved := length_positionsOf_carved h hspanning
  have hends := (perm_endCells_append params h (by omega) (by omega)).length_eq
  have hlength : (g.endCells params).length = 1 + params.exitCount := by
    rw [endCells]
    split
    · rw [hgoal.mp ‹_›]
      rfl
    · rw [params.exitCount_eq_one (mt hgoal.mpr ‹_›)]
      rfl
  rw [List.length_append, hlength] at hends
  rw [hwidth, hheight] at hcarved
  rw [Params.plainCount, Params.latticeCount]
  omega

/-- All that carving can leave becomes such a grid. -/
theorem placed_placeEnds (hw : 5 ≤ params.width) (hh : 5 ≤ params.height)
    (h : Leaves params (filled params.width params.height) carved) :
    Placed params (carved.placeEnds params) := by
  obtain ⟨hcarved, hspanning⟩ := h.spanning (by omega) (by omega)
  obtain ⟨hwidth, hheight⟩ : carved.width = params.width ∧ carved.height = params.height :=
    h.sides
  have hgoal : (carved.placeEnds params).goal = origin ↔ params.exitCount = 0 := by
    rw [goal_placeEnds_eq_iff params hcarved (by omega) (by omega), hwidth, hheight,
      Params.exitCount]
    split <;> simp_all
  have hnone (q : Position) {t : Tile} (hwall : t ≠ .wall) (hpath : t ≠ .path)
      (hstart : t ≠ .start) (hexit : t ≠ .exit) : (carved.placeEnds params).get? q ≠ some t := by
    rw [get?_placeEnds hcarved (by omega) (by omega)]
    split
    · simpa using hexit.symm
    · split
      · simpa using hstart.symm
      · exact get?_carved_ne hcarved hwall hpath
  refine ⟨?_, ?_, start_placeEnds params hcarved, ?_, ?_, hgoal, ?_, ?_, ?_⟩
  · simpa [placeEnds] using hwidth
  · simpa [placeEnds] using hheight
  · exact fun q => start_placeEnds_iff hcarved (by omega) (by omega)
  · exact fun q => exit_placeEnds_iff params q hcarved (by omega) (by omega)
  · exact fun q => hnone q (by decide) (by decide) (by decide) (by decide)
  · exact fun q => hnone q (by decide) (by decide) (by decide) (by decide)
  · exact length_positionsOf_placeEnds hcarved hspanning hwidth hheight hw hh hgoal

namespace Placed

variable (h : Placed params g)

include h

theorem count_start : g.count .start = 1 :=
  count_eq_length (List.nodup_singleton origin) fun q => by rw [h.start_iff, List.mem_singleton]

theorem count_exit : g.count .exit = params.exitCount := by
  by_cases hnone : params.exitCount = 0
  · rw [hnone]
    refine count_eq_length List.nodup_nil fun q => ?_
    rw [h.exit_iff]
    exact iff_of_false (fun hq => hq.2 (h.goal_iff.mpr hnone)) List.not_mem_nil
  · rw [params.exitCount_eq_one hnone]
    refine count_eq_length (List.nodup_singleton g.goal) fun q => ?_
    rw [h.exit_iff, List.mem_singleton, and_iff_left (mt h.goal_iff.mp hnone)]

/-- In whatever order the plain cells come, what is sprinkled on them makes the same numbers. -/
theorem census {cells : List Position} (hw : 5 ≤ params.width) (hh : 5 ≤ params.height)
    (hshare : params.hazardCount concepts ≤ params.plainCount)
    (hcells : cells.Perm (g.positionsOf .path)) :
    Census params concepts
      (g.sprinkleOn cells (params.hazardCount concepts) (params.rewardCount concepts)) := by
  have hpath : ∀ p ∈ cells, g.get? p = some .path :=
    fun p hp => mem_positionsOf.mp (hcells.mem_iff.mp hp)
  have hlength : cells.length = params.plainCount := hcells.length_eq.trans h.plain
  have hfit := Params.hazardCount_add_rewardCount_le hshare
  obtain ⟨first, second, rest, rfl, hfirst, hsecond, hrest⟩ := exists_parts (hlength ▸ hfit)
  obtain ⟨hhazards, hrewards, hpaths⟩ := counts_sprinkleOn hcells h.ne_hazard h.ne_reward
  rw [← hfirst, ← hsecond]
  set sprinkled := g.sprinkleOn (first ++ (second ++ rest)) first.length second.length
  have hstarts : sprinkled.count .start = 1 := by
    rw [count_sprinkleOn hpath (by decide) (by decide) (by decide), h.count_start]
  have hexits : sprinkled.count .exit = params.exitCount := by
    rw [count_sprinkleOn hpath (by decide) (by decide) (by decide), h.count_exit]
  refine ⟨?_, hstarts, ⟨?_, ?_⟩, hexits, ?_, hhazards.trans hfirst, hrewards.trans hsecond, ?_⟩
  · -- the walls are all cells without one of the other tiles
    have hsum := sum_count sprinkled
    rw [width_sprinkleOn, height_sprinkleOn, h.width_eq, h.height_eq] at hsum
    simp only [Tile.all, List.map_cons, List.map_nil, List.sum_cons, List.sum_nil] at hsum
    have hfour := Params.four_le_latticeCount hw hh
    have hle := params.exitCount_le_one
    have hplain : params.plainCount = 2 * params.latticeCount - 2 - params.exitCount := rfl
    omega
  · rw [start_sprinkleOn, h.start_eq]
    rfl
  · rw [start_sprinkleOn, h.start_eq,
      get?_sprinkleOn_iff hpath (by decide) (by decide) (by decide), h.start_iff]
  · rw [goal_sprinkleOn, start_sprinkleOn, h.start_eq,
      get?_sprinkleOn_iff hpath (by decide) (by decide) (by decide), h.exit_iff]
    split
    · exact h.goal_iff.mpr ‹_›
    · exact ⟨rfl, mt h.goal_iff.mp ‹_›⟩
  · rw [hpaths, hrest, hlength]

end Placed

/-- Every source of randomness sprinkles so many hazards and strawberries on the plain cells, in
some order, of something that carving can leave. -/
theorem exists_grow {σ : Type} [WordSource σ] (hw : 5 ≤ params.width) (hh : 5 ≤ params.height)
    (concepts : List Concept) (s : σ) :
    ∃ carved cells, Leaves params (filled params.width params.height) carved ∧
      cells.Perm ((carved.placeEnds params).positionsOf .path) ∧
      grow params concepts s = (carved.placeEnds params).sprinkleOn cells
        (params.hazardCount concepts) (params.rewardCount concepts) := by
  have h := leaves_carve params (filled params.width params.height) s
  have hcells := perm_shuffle
    ((((filled params.width params.height).carve params s).1.placeEnds params).positionsOf .path)
    ((filled params.width params.height).carve params s).2
  have hlength := hcells.length_eq.trans (placed_placeEnds hw hh h).plain
  refine ⟨_, _, h, hcells, ?_⟩
  rw [Params.rewardCount, Params.hazardCount, ← hlength]
  rfl

/-- Whatever is drawn, a grid has the same number of tiles of each kind, and no more cells are asked
for in sprinkling than there are. This holds for all that carving can leave, with the plain cells in
any order, for every source of randomness, and for every seed. -/
theorem census_whatever_is_drawn (params : Params) (concepts : List Concept)
    (hfault : params.fault? = none)
    (hshare : params.hazardCount concepts ≤ params.plainCount) :
    (∀ carved, Leaves params (filled params.width params.height) carved →
      ((carved.placeEnds params).positionsOf .path).length = params.plainCount ∧
      params.hazardCount concepts + params.rewardCount concepts ≤ params.plainCount ∧
      ∀ cells, cells.Perm ((carved.placeEnds params).positionsOf .path) →
        Census params concepts ((carved.placeEnds params).sprinkleOn cells
          (params.hazardCount concepts) (params.rewardCount concepts))) ∧
    (∀ (σ : Type) [WordSource σ] (s : σ), Census params concepts (grow params concepts s)) ∧
    ∀ seed, ∃ g, generate params seed concepts = .ok g ∧ Census params concepts g := by
  obtain ⟨hw, hh⟩ := Params.sides_of_fault?_eq_none hfault
  have hsource (σ : Type) [WordSource σ] (s : σ) :
      Census params concepts (grow params concepts s) := by
    obtain ⟨carved, cells, h, hcells, heq⟩ := exists_grow hw hh concepts s
    rw [heq]
    exact (placed_placeEnds hw hh h).census hw hh hshare hcells
  refine ⟨fun carved h => ?_, hsource, fun seed => ?_⟩
  · have hplaced := placed_placeEnds hw hh h
    exact ⟨hplaced.plain, Params.hazardCount_add_rewardCount_le hshare,
      fun cells hcells => hplaced.census hw hh hshare hcells⟩
  · refine ⟨_, ?_, hsource _ (ChaCha.ofSeed seed)⟩
    rw [generate, hfault]

/-- On nine by five cells fifteen are opened and thirteen are plain, of which a share of 0.21 is two
hazards and one of 0.08 is one strawberry. -/
theorem census_nine_by_five :
    let params := { Params.stress with width := 9, height := 5 }
    params.fault? = none ∧ params.hazardCount [.conditionals] ≤ params.plainCount ∧
      ∃ g, generate params 7 [.conditionals] = .ok g ∧ g.count .wall = 30 ∧ g.count .hazard = 2 ∧
        g.count .reward = 1 ∧ g.count .path = 10 := by
  intro params
  have hfault : params.fault? = none := Option.isNone_iff_eq_none.mp (by decide +kernel)
  have hhazards : params.hazardCount [.conditionals] = 2 := by decide +kernel
  have hrewards : params.rewardCount [.conditionals] = 1 := by decide +kernel
  have hshare : params.hazardCount [.conditionals] ≤ params.plainCount := by
    rw [hhazards]
    decide
  obtain ⟨-, -, hseeds⟩ := census_whatever_is_drawn params [.conditionals] hfault hshare
  obtain ⟨g, hg, hcensus⟩ := hseeds 7
  refine ⟨hfault, hshare, g, hg, hcensus.walls.trans (by decide), hcensus.hazards.trans hhazards,
    hcensus.rewards.trans hrewards, ?_⟩
  rw [hcensus.paths, hhazards, hrewards]
  decide

end Grid

end Labyrinth
