import Labyrinth.Proofs.Level.Ends

/-!
# Perfect mazes

Whatever is drawn, the open cells of a grid form a tree that covers every cell with odd
coordinates: all of them are open, every other open cell lies halfway between two of them, and
between any two open cells there is exactly one simple path. Start, goal, hazards and strawberries
are put on open cells, so this holds of the whole grid as it holds of the carved one.
-/

namespace Labyrinth

namespace Grid

open Carve

variable {g g' : Grid} {p q : Position} {params : Params}

/-- The open cells, joined where they are next to each other. -/
def passages (g : Grid) : SimpleGraph Position := cellGraph (g.isWalkable · = true)

/-- The open cells are a tree over the cells with odd coordinates inside the border. -/
structure Perfect (g : Grid) : Prop where
  /-- The cells with odd coordinates are open. -/
  lattice : ∀ p, g.OnLattice p → g.isWalkable p = true
  /-- Any other open cell is halfway between two of them that are two apart. -/
  halfway : ∀ p, g.isWalkable p = true → ¬ g.OnLattice p →
    ∃ q d, g.OnLattice q ∧ g.OnLattice ((q.step d).step d) ∧ p = q.step d
  /-- So many cells have odd coordinates. -/
  ncard_lattice : {p | g.OnLattice p}.ncard = (g.width - 1) / 2 * ((g.height - 1) / 2)
  /-- There is one fewer of the others. -/
  ncard_halfway : {p | g.isWalkable p = true ∧ ¬ g.OnLattice p}.ncard =
    (g.width - 1) / 2 * ((g.height - 1) / 2) - 1
  /-- The border is walls. -/
  border : ∀ p, g.InBounds p → ¬ g.Interior p → g.get? p = some .wall
  /-- So are the cells with even coordinates. -/
  even : ∀ p, g.InBounds p → p.x % 2 = 0 → p.y % 2 = 0 → g.get? p = some .wall
  /-- Between any two open cells there is exactly one simple path. -/
  path : ∀ p q, g.isWalkable p = true → g.isWalkable q = true →
    ∃! w : g.passages.Walk p q, w.IsPath

/-- A column and a row below these bounds are those of one cell with odd coordinates. -/
theorem ncard_onLattice (g : Grid) :
    {p | g.OnLattice p}.ncard = (g.width - 1) / 2 * ((g.height - 1) / 2) := by
  let cell : Nat × Nat → Position := fun ij => ⟨2 * ij.1 + 1, 2 * ij.2 + 1⟩
  have hinjective : Function.Injective cell := by
    rintro ⟨i, j⟩ ⟨i', j'⟩ h
    simp only [cell, Position.mk.injEq] at h
    simp only [Prod.mk.injEq]
    omega
  have himage : {p | g.OnLattice p} =
      ↑((Finset.range ((g.width - 1) / 2) ×ˢ Finset.range ((g.height - 1) / 2)).image cell) := by
    ext ⟨x, y⟩
    simp only [OnLattice, Interior, Set.mem_ofPred_eq, Finset.coe_image, Set.mem_image,
      Finset.mem_coe, Finset.mem_product, Finset.mem_range, Prod.exists, cell, Position.mk.injEq]
    constructor
    · intro h
      exact ⟨(x / 2).toNat, (y / 2).toNat, by omega, by omega⟩
    · rintro ⟨i, j, hij, rfl, rfl⟩
      omega
  rw [himage, Set.ncard_coe_finset, Finset.card_image_of_injective _ hinjective,
    Finset.card_product, Finset.card_range, Finset.card_range]

/-- A wall is a cell of the grid that is not open. -/
theorem get?_eq_wall_iff :
    g.get? p = some .wall ↔ g.InBounds p ∧ ¬ g.isWalkable p = true := by
  rw [isWalkable_iff, ← exists_get?_iff]
  constructor
  · intro h
    refine ⟨⟨_, h⟩, ?_⟩
    rintro ⟨t, ht, hwall⟩
    rw [h] at ht
    exact hwall (Option.some.inj ht).symm
  · rintro ⟨⟨t, ht⟩, hclosed⟩
    by_cases hwall : t = .wall
    · rw [ht, hwall]
    · exact absurd ⟨t, ht, hwall⟩ hclosed

/-- Two grids of the same sides have the same open cells. -/
structure AsOpen (g g' : Grid) : Prop where
  /-- They are equally wide. -/
  width_eq : g'.width = g.width
  /-- They are equally high. -/
  height_eq : g'.height = g.height
  /-- The same cells are open. -/
  isWalkable_iff : ∀ p, g'.isWalkable p = true ↔ g.isWalkable p = true

namespace AsOpen

theorem onLattice_iff (h : g.AsOpen g') : g'.OnLattice p ↔ g.OnLattice p := by
  simp only [OnLattice, Interior, h.width_eq, h.height_eq]

theorem passages_eq (h : g.AsOpen g') : g'.passages = g.passages :=
  congrArg cellGraph (funext fun p => propext (h.isWalkable_iff p))

/-- Whether a grid is perfect is seen from its open cells. -/
theorem perfect (h : g.AsOpen g') (hg : g.Perfect) : g'.Perfect := by
  have hinBounds {p : Position} : g'.InBounds p ↔ g.InBounds p := by
    simp only [InBounds, h.width_eq, h.height_eq]
  have hinterior {p : Position} : g'.Interior p ↔ g.Interior p := by
    simp only [Interior, h.width_eq, h.height_eq]
  have hwall {p : Position} : g'.get? p = some .wall ↔ g.get? p = some .wall := by
    rw [get?_eq_wall_iff, get?_eq_wall_iff, hinBounds, h.isWalkable_iff]
  refine ⟨?_, ?_, g'.ncard_onLattice, ?_, ?_, ?_, ?_⟩
  · intro p hp
    exact (h.isWalkable_iff p).mpr (hg.lattice p (h.onLattice_iff.mp hp))
  · intro p hp hoff
    simp only [h.onLattice_iff] at hoff ⊢
    exact hg.halfway p ((h.isWalkable_iff p).mp hp) hoff
  · simp only [h.onLattice_iff, h.isWalkable_iff, h.width_eq, h.height_eq]
    exact hg.ncard_halfway
  · intro p hp hborder
    exact hwall.mpr (hg.border p (hinBounds.mp hp) (mt hinterior.mpr hborder))
  · intro p hp hx hy
    exact hwall.mpr (hg.even p (hinBounds.mp hp) hx hy)
  · intro p q hp hq
    rw [h.passages_eq]
    exact hg.path p q ((h.isWalkable_iff p).mp hp) ((h.isWalkable_iff q).mp hq)

end AsOpen

/-- The open cells of a carved grid are joined as its floor is. -/
theorem passages_carved (h : Carved g []) : g.passages = cellGraph g.IsFloor :=
  congrArg cellGraph (funext fun _ => propext (isWalkable_carved h))

/-- A carved grid that is spanned is perfect. -/
theorem perfect_carved (h : Carved g []) (hspanning : Spanning g) : g.Perfect := by
  have hopen {p : Position} : g.isWalkable p = true ↔ g.IsFloor p := isWalkable_carved h
  refine ⟨?_, ?_, g.ncard_onLattice, ?_, ?_, ?_, ?_⟩
  · intro p hp
    exact hopen.mpr (h.get?_of_onLattice hp)
  · intro p hp hoff
    obtain ⟨q, d, hq, hend, heq⟩ := hspanning.passage p (hopen.mp hp) hoff
    exact ⟨q, d, hq.1, hend.1, heq⟩
  · have hall : {p | g.IsFloor p ∧ g.OnLattice p} = {p | g.OnLattice p} :=
      Set.ext fun p => ⟨And.right, fun hp => ⟨h.get?_of_onLattice hp, hp⟩⟩
    have hcounted := hspanning.counted
    rw [hall, ncard_onLattice] at hcounted
    simp only [hopen]
    omega
  · intro p hp hborder
    obtain ⟨t, ht⟩ := exists_get?_iff.mpr hp
    rcases h.floor p t ht with rfl | ⟨-, hin⟩
    · exact ht
    · exact absurd hin hborder
  · intro p hp hx hy
    obtain ⟨t, ht⟩ := exists_get?_iff.mpr hp
    rcases h.floor p t ht with rfl | ⟨rfl, -⟩
    · exact ht
    · rcases hspanning.odd ht with hodd | hodd <;> omega
  · intro p q hp hq
    rw [passages_carved h]
    have hreach {r : Position} (hr : g.isWalkable r = true) :
        (cellGraph g.IsFloor).Reachable origin r := (h.joined r (hopen.mp hr)).reachable.2
    obtain ⟨w, hw⟩ := ((hreach hp).symm.trans (hreach hq)).exists_isPath
    refine ⟨w, hw, ?_⟩
    intro v hv
    exact Subtype.mk.inj ((hspanning.acyclic.subsingleton_path p q).elim ⟨v, hv⟩ ⟨w, hw⟩)

/-- A grid that can be made of a carved one: with its start and its goal, and with hazards and
strawberries on any of its plain cells, in any order. -/
def IsSprinkled (params : Params) (carved g : Grid) : Prop :=
  ∃ cells hazards rewards, cells.Perm ((carved.placeEnds params).positionsOf .path) ∧
    g = (carved.placeEnds params).sprinkleOn cells hazards rewards

/-- Start, goal, hazards and strawberries open and close no cell. -/
theorem IsSprinkled.asOpen {carved : Grid} (h : IsSprinkled params carved g)
    (hcarved : Carved carved []) :
    carved.AsOpen (carved.placeEnds params) ∧ carved.AsOpen g := by
  have hends : carved.AsOpen (carved.placeEnds params) := by
    refine ⟨by simp [placeEnds], by simp [placeEnds], ?_⟩
    intro p
    rw [isWalkable_placeEnds hcarved, isWalkable_carved hcarved]
  obtain ⟨cells, hazards, rewards, hcells, rfl⟩ := h
  have hpath : ∀ p ∈ cells, (carved.placeEnds params).get? p = some .path :=
    fun p hp => mem_positionsOf.mp (hcells.mem_iff.mp hp)
  refine ⟨hends, width_sprinkleOn.trans hends.width_eq,
    height_sprinkleOn.trans hends.height_eq, ?_⟩
  intro p
  rw [isWalkable_sprinkleOn hpath, hends.isWalkable_iff]

/-- What is grown from a source is made of what it carves. -/
theorem isSprinkled_grow {σ : Type} [WordSource σ] (params : Params) (concepts : List Concept)
    (s : σ) :
    IsSprinkled params ((filled params.width params.height).carve params s).1
      (grow params concepts s) :=
  ⟨_, _, _, perm_shuffle _ _, rfl⟩

/-- Carving comes to an end in every order of draws, and not before the way is empty. Whatever
candidates are opened, and whatever is put on which cells afterwards, the grid is perfect, and its
open cells are those that were carved. Every source of randomness gives such a grid, and so does
every seed with which a grid can be generated. -/
theorem perfect_whatever_is_drawn (params : Params) (hwidth : 5 ≤ params.width)
    (hheight : 5 ≤ params.height) :
    (WellFounded (fun s t => Step params t s) ∧
      ∀ g way, (∀ t, ¬ Step params (g, way) t) ↔ way = []) ∧
    (∀ carved, Leaves params (filled params.width params.height) carved →
      carved.width = params.width ∧ carved.height = params.height ∧ carved.Perfect ∧
      ∀ g, IsSprinkled params carved g →
        g.Perfect ∧ carved.AsOpen (carved.placeEnds params) ∧ carved.AsOpen g) ∧
    (∀ (σ : Type) [WordSource σ] (concepts : List Concept) (s : σ),
      Leaves params (filled params.width params.height)
          ((filled params.width params.height).carve params s).1 ∧
        IsSprinkled params ((filled params.width params.height).carve params s).1
          (grow params concepts s) ∧
        (grow params concepts s).Perfect) ∧
    ∀ seed concepts g, generate params seed concepts = .ok g → g.Perfect := by
  have hperfect {carved : Grid} (h : Leaves params (filled params.width params.height) carved) :
      carved.Perfect ∧ ∀ g, IsSprinkled params carved g →
        g.Perfect ∧ carved.AsOpen (carved.placeEnds params) ∧ carved.AsOpen g := by
    obtain ⟨hcarved, hspanning⟩ := h.spanning (by omega) (by omega)
    have hbare := perfect_carved hcarved hspanning
    refine ⟨hbare, fun g hg => ?_⟩
    obtain ⟨hends, hopen⟩ := hg.asOpen hcarved
    exact ⟨hopen.perfect hbare, hends, hopen⟩
  have hsource (σ : Type) [WordSource σ] (concepts : List Concept) (s : σ) :
      (grow params concepts s).Perfect :=
    ((hperfect (leaves_carve params _ s)).2 _ (isSprinkled_grow params concepts s)).1
  refine ⟨⟨wellFounded_step params, ?_⟩, ?_, ?_, ?_⟩
  · intro g way
    constructor
    · intro hnone
      cases way with
      | nil => rfl
      | cons here back =>
        obtain ⟨t, ht⟩ := exists_step params g here back
        exact absurd ht (hnone t)
    · rintro rfl t ht
      cases ht
  · intro carved h
    exact ⟨h.sides.1, h.sides.2, hperfect h⟩
  · intro σ _ concepts s
    exact ⟨leaves_carve params _ s, isSprinkled_grow params concepts s, hsource σ concepts s⟩
  · intro seed concepts g hg
    rw [generate] at hg
    split at hg
    · cases hg
    · cases hg
      exact hsource _ concepts _

/-- On six by five cells, where a near exit has no place, there are four cells with odd coordinates
and three between them. -/
theorem perfect_six_by_five :
    let params := { Params.stress with width := 6, height := 5, shortExit := true }
    let carved := ((filled params.width params.height).carve params (ChaCha.ofSeed 7)).1
    let g := grow params [.loops] (ChaCha.ofSeed 7)
    5 ≤ params.width ∧ 5 ≤ params.height ∧
      Leaves params (filled params.width params.height) carved ∧ IsSprinkled params carved g ∧
      carved.AsOpen g ∧ g.Perfect ∧
      {p | g.isWalkable p = true ∧ ¬ g.OnLattice p}.ncard = 3 := by
  intro params carved g
  obtain ⟨-, hall, hsources, -⟩ := perfect_whatever_is_drawn params (by decide) (by decide)
  obtain ⟨hleaves, hmade, hperfect⟩ := hsources _ [.loops] (ChaCha.ofSeed 7)
  obtain ⟨hwidth, hheight, -, hputs⟩ := hall carved hleaves
  obtain ⟨-, -, hopen⟩ := hputs g hmade
  refine ⟨by decide, by decide, hleaves, hmade, hopen, hperfect, ?_⟩
  rw [hperfect.ncard_halfway, hopen.width_eq, hopen.height_eq, hwidth, hheight]
  decide

end Grid

end Labyrinth
