import Labyrinth.Proofs.Level.Perfect

/-!
# Carving goes deep first

Carving leaves a cell only when all cells two steps away are carved. So a cell that is carved and
next to be reached again lies on the way, which goes down from the origin, and of two carved cells
that are two apart one lies above the other (`Descending`). In particular the way splits at the
origin only once: the start has one open neighbour.
-/

namespace Labyrinth

/-- Two cells are two apart in some direction. -/
def Position.TwoApart (p q : Position) : Prop := ∃ d : Direction, (p.step d).step d = q

theorem Position.TwoApart.symm {p q : Position} (h : p.TwoApart q) : q.TwoApart p := by
  obtain ⟨d, rfl⟩ := h
  obtain ⟨e, hback⟩ := exists_step_back d
  exact ⟨e, by rw [hback, hback]⟩

namespace Carve

open Grid

variable {params : Params} {g : Grid} {p q : Position}

/-- What holds of the way after every step of carving. -/
structure Descending (g : Grid) (way : List Position) : Prop where
  /-- Each cell of the way lies above those carved after it. -/
  downward : way.Pairwise fun later earlier => Above g.IsFloor origin earlier later
  /-- Of two carved cells that are two apart, one lies above the other. -/
  related : ∀ p q, p.TwoApart q → g.OnLattice p → g.OnLattice q → g.IsFloor p → g.IsFloor q →
    Above g.IsFloor origin p q ∨ Above g.IsFloor origin q p

/-- Before the first step only the origin is carved. -/
theorem descending_start {width height : Nat} (hwidth : 3 ≤ width) (hheight : 3 ≤ height) :
    Descending ((filled width height).set origin .path) [origin] := by
  have hjoined := (carved_start hwidth hheight).joined
  refine ⟨List.pairwise_singleton _ _, ?_⟩
  intro p q _ _ _ hp hq
  obtain rfl := (isFloor_start hwidth hheight).mp hp
  obtain rfl := (isFloor_start hwidth hheight).mp hq
  exact .inl (above_self (hjoined origin hp).reachable.2)

section

variable {here : Position} {back : List Position} {c : Candidate}

/-- Every cell of the way lies above a candidate of its last cell, once that is opened. -/
theorem Descending.above_cell (h : Descending g (here :: back)) (hcarved : Carved g (here :: back))
    (hspanning : Spanning g) (hc : c ∈ candidates params g here) (hq : q ∈ here :: back) :
    Above (opened g c).IsFloor origin q c.cell := by
  obtain ⟨hfirst, hsecond⟩ := hspanning.hangsOn hcarved hc
  have habove : Above g.IsFloor origin q here := by
    rcases List.mem_cons.mp hq with rfl | hback
    · exact above_self (hcarved.joined _ (hcarved.on_way _ List.mem_cons_self).2).reachable.2
    · exact List.rel_of_pairwise_cons h.downward hback
  rw [isFloor_opened_eq hcarved hc]
  exact (habove.leaf hcarved.begun.2 hfirst).leaf (.inr hcarved.begun.2) hsecond

/-- A carved cell two steps from a wall that can be carved lies on the way: it was not left, for
then the wall would be carved. -/
theorem mem_way_of_twoApart {way : List Position} (hcarved : Carved g way) (hp : g.OnLattice p)
    (hwall : ¬ g.IsFloor p) (hq : g.OnLattice q) (hfloor : g.IsFloor q) (hapart : q.TwoApart p) :
    q ∈ way := by
  by_contra hleft
  obtain ⟨d, rfl⟩ := hapart
  exact hwall (hcarved.explored q hq hfloor hleft d hp.1)

/-- A step forward keeps all this. -/
theorem Descending.opened (h : Descending g (here :: back)) (hcarved : Carved g (here :: back))
    (hspanning : Spanning g) (hc : c ∈ candidates params g here) :
    Descending (opened g c) (c.cell :: here :: back) := by
  obtain ⟨hlattice, -, hoff⟩ := hcarved.of_mem_candidates hc
  have hwall : ¬ g.IsFloor c.cell :=
    fun hfloor => (hspanning.hangsOn hcarved hc).2.closed (.inr hfloor)
  have hmore : ∀ r, g.IsFloor r → (Carve.opened g c).IsFloor r :=
    fun _ hr => (isFloor_opened hcarved hc).mpr (.inr (.inr hr))
  have habove {q : Position} (hq : q ∈ here :: back) :
      Above (Carve.opened g c).IsFloor origin q c.cell := h.above_cell hcarved hspanning hc hq
  -- a cell with odd coordinates that is floor now is the new one or was floor before
  have hnew {q : Position} (hq : g.OnLattice q) (hfloor : (Carve.opened g c).IsFloor q) :
      q = c.cell ∨ g.IsFloor q := by
    rcases (isFloor_opened hcarved hc).mp hfloor with heq | rfl | hold
    · exact .inl heq
    · exact absurd hq hoff
    · exact .inr hold
  refine ⟨List.pairwise_cons.mpr ⟨fun q hq => habove hq, ?_⟩, ?_⟩
  · exact h.downward.imp fun hpq => hpq.mono hmore
  · intro p q hapart hp hq hpfloor hqfloor
    rw [onLattice_opened] at hp hq
    rcases hnew hp hpfloor with rfl | hpold
    · rcases hnew hq hqfloor with rfl | hqold
      · have hreach : (cellGraph (Carve.opened g c).IsFloor).Reachable origin c.cell :=
          ((hcarved.opened hc).joined c.cell hpfloor).reachable.2
        exact .inl (above_self hreach)
      · exact .inr (habove (mem_way_of_twoApart hcarved hlattice hwall hq hqold hapart.symm))
    · rcases hnew hq hqfloor with rfl | hqold
      · exact .inl (habove (mem_way_of_twoApart hcarved hlattice hwall hp hpold hapart))
      · exact (h.related p q hapart hp hq hpold hqold).imp (·.mono hmore) (·.mono hmore)

/-- A step back keeps all this. -/
theorem Descending.leave (h : Descending g (here :: back)) : Descending g back :=
  ⟨(List.pairwise_cons.mp h.downward).2, h.related⟩

end

/-- In all that carving can leave, one of two cells that are two apart lies above the other. -/
theorem Leaves.descending {width height : Nat} (hwidth : 3 ≤ width) (hheight : 3 ≤ height)
    (h : Leaves params (filled width height) g) : Descending g [] := by
  refine (h.induction (motive := fun g way => Carved g way ∧ Spanning g ∧ Descending g way)
    ⟨carved_start hwidth hheight, spanning_start hwidth hheight,
      descending_start hwidth hheight⟩ ?_ ?_).2.2
  · rintro g here back c hc ⟨hcarved, hspanning, hdescending⟩
    exact ⟨hcarved.opened hc, hspanning.opened hcarved hc, hdescending.opened hcarved hspanning hc⟩
  · rintro g here back hnone ⟨hcarved, hspanning, hdescending⟩
    exact ⟨hcarved.back hnone, hspanning, hdescending.leave⟩

/-- An open neighbour of the origin is the one to its right or the one below. -/
theorem Carved.step_origin (h : Carved g []) {d : Direction} (hd : g.IsFloor (origin.step d)) :
    d = .right ∨ d = .down := by
  rcases h.floor _ _ hd with hwall | ⟨-, hin⟩
  · cases hwall
  · cases d <;> simp [Interior, origin, Position.step, Position.offset, Direction.delta] at hin ⊢

/-- The cells to the right of the origin and below it are not both floor. The cell that is two
apart from both of their ends would lie below both. -/
theorem Descending.not_both (h : Descending g []) (hcarved : Carved g []) (hspanning : Spanning g)
    (hwidth : 5 ≤ g.width) (hheight : 5 ≤ g.height) (hright : g.IsFloor (origin.step .right)) :
    ¬ g.IsFloor (origin.step .down) := by
  intro hdown
  have hcorner : g.OnLattice ⟨3, 3⟩ := by
    simp only [OnLattice, Interior]
    omega
  -- the end of either passage lies above the corner, and so does the passage
  have habove (d : Direction) (hd : d = .right ∨ d = .down) (hfloor : g.IsFloor (origin.step d)) :
      Above g.IsFloor origin (origin.step d) ⟨3, 3⟩ := by
    have hend : g.OnLattice ((origin.step d).step d) := by
      rcases hd with rfl | rfl <;>
        simp only [OnLattice, Interior, origin, Position.step, Position.offset,
          Direction.delta] <;> omega
    have hendfloor := hcarved.get?_of_onLattice hend
    have hcornerfloor := hcarved.get?_of_onLattice hcorner
    have hfirst : (cellGraph g.IsFloor).Adj origin (origin.step d) :=
      ⟨hcarved.begun.2, hfloor, Position.beside_step _ d⟩
    have hsecond : (cellGraph g.IsFloor).Adj (origin.step d) ((origin.step d).step d) :=
      ⟨hfloor, hendfloor, Position.beside_step _ d⟩
    have hne : origin ≠ (origin.step d).step d := by rcases hd with rfl | rfl <;> decide
    have hapart : ((origin.step d).step d).TwoApart ⟨3, 3⟩ := by
      rcases hd with rfl | rfl
      · exact ⟨.down, rfl⟩
      · exact ⟨.right, rfl⟩
    have hpassage : Above g.IsFloor origin (origin.step d) ((origin.step d).step d) := by
      refine ⟨.cons hfirst (.cons hsecond .nil), ?_, by simp⟩
      simp [SimpleGraph.Walk.cons_isPath_iff, hfirst.ne, hsecond.ne, hne]
    rcases h.related _ _ hapart hend hcorner hendfloor hcornerfloor with hrel | hrel
    · exact hpassage.trans hrel hspanning.acyclic
    · have hcases := hrel.of_adj_adj hspanning.acyclic hfirst hsecond hne
      rcases hd with rfl | rfl <;> exact absurd hcases (by decide)
  have hsame := (habove .right (.inl rfl) hright).eq_of_adj (habove .down (.inr rfl) hdown)
    hspanning.acyclic ⟨hcarved.begun.2, hright, Position.beside_step _ _⟩
    ⟨hcarved.begun.2, hdown, Position.beside_step _ _⟩
  exact absurd hsame (by decide)

/-- The origin has one open neighbour. -/
theorem Descending.existsUnique_step (h : Descending g []) (hcarved : Carved g [])
    (hspanning : Spanning g) (hwidth : 5 ≤ g.width) (hheight : 5 ≤ g.height) :
    ∃! d : Direction, g.IsFloor (origin.step d) := by
  have hother : g.IsFloor ⟨3, 1⟩ := by
    refine hcarved.get?_of_onLattice ?_
    simp only [OnLattice, Interior]
    omega
  obtain ⟨d, hd⟩ := (hcarved.joined _ hother).exists_step (by decide)
  refine ⟨d, hd, ?_⟩
  intro e he
  rcases hcarved.step_origin hd with rfl | rfl <;> rcases hcarved.step_origin he with rfl | rfl
  · rfl
  · exact absurd he (h.not_both hcarved hspanning hwidth hheight hd)
  · exact absurd hd (h.not_both hcarved hspanning hwidth hheight he)
  · rfl

end Carve

namespace Grid

open Carve

variable {g g' : Grid} {p q : Position} {params : Params}

/-- A cell lies on the one simple path from the origin to another. -/
def Ancestor (g : Grid) (p q : Position) : Prop :=
  ∃ w : g.passages.Walk origin q, w.IsPath ∧ p ∈ w.support ∧
    ∀ v : g.passages.Walk origin q, v.IsPath → v = w

/-- The passages go deep first from the origin. -/
structure DepthFirst (g : Grid) : Prop where
  /-- Of two cells with odd coordinates that are two apart, one is on the path to the other. -/
  related : ∀ p q, p.TwoApart q → g.OnLattice p → g.OnLattice q →
    g.Ancestor p q ∨ g.Ancestor q p
  /-- The origin has one open neighbour. -/
  start : ∃! d : Direction, g.isWalkable (origin.step d) = true

theorem AsOpen.ancestor_iff (h : g.AsOpen g') : g'.Ancestor p q ↔ g.Ancestor p q := by
  rw [Ancestor, Ancestor, h.passages_eq]

/-- Whether the passages go deep first is seen from the open cells. -/
theorem AsOpen.depthFirst (h : g.AsOpen g') (hg : g.DepthFirst) : g'.DepthFirst := by
  refine ⟨?_, ?_⟩
  · intro p q hapart hp hq
    rw [h.ancestor_iff, h.ancestor_iff]
    exact hg.related p q hapart (h.onLattice_iff.mp hp) (h.onLattice_iff.mp hq)
  · simp only [h.isWalkable_iff]
    exact hg.start

/-- What lies above a cell is on the one simple path to it. -/
theorem ancestor_of_above (hcarved : Carved g []) (hspanning : Spanning g)
    (h : Above g.IsFloor origin p q) : g.Ancestor p q := by
  obtain ⟨w, hw, hp⟩ := h
  rw [Ancestor, passages_carved hcarved]
  refine ⟨w, hw, hp, ?_⟩
  intro v hv
  exact Subtype.mk.inj ((hspanning.acyclic.subsingleton_path origin q).elim ⟨v, hv⟩ ⟨w, hw⟩)

/-- All that carving can leave goes deep first. -/
theorem depthFirst_of_leaves {width height : Nat} (hwidth : 5 ≤ width) (hheight : 5 ≤ height)
    (h : Leaves params (filled width height) g) : g.DepthFirst := by
  obtain ⟨hcarved, hspanning⟩ := h.spanning (by omega) (by omega)
  have hdescending := h.descending (by omega) (by omega)
  obtain ⟨hw, hh⟩ := h.sides
  refine ⟨?_, ?_⟩
  · intro p q hapart hp hq
    have hrelated := hdescending.related p q hapart hp hq (hcarved.get?_of_onLattice hp)
      (hcarved.get?_of_onLattice hq)
    exact hrelated.imp (ancestor_of_above hcarved hspanning) (ancestor_of_above hcarved hspanning)
  · simp only [isWalkable_carved hcarved]
    exact hdescending.existsUnique_step hcarved hspanning (hw ▸ hwidth) (hh ▸ hheight)

/-- Whatever is drawn, carving goes deep first, and nothing that is put on the grid afterwards
changes that. The start of the grid is the origin. -/
theorem depthFirst_whatever_is_drawn (params : Params) (hwidth : 5 ≤ params.width)
    (hheight : 5 ≤ params.height) :
    (∀ carved, Leaves params (filled params.width params.height) carved →
      carved.DepthFirst ∧
        ∀ g, IsSprinkled params carved g → g.start = origin ∧ g.DepthFirst) ∧
    ∀ (σ : Type) [WordSource σ] (concepts : List Concept) (s : σ),
      ((filled params.width params.height).carve params s).1.DepthFirst ∧
        (grow params concepts s).start = origin ∧ (grow params concepts s).DepthFirst := by
  have hdeep {carved : Grid} (h : Leaves params (filled params.width params.height) carved) :
      carved.DepthFirst ∧
        ∀ g, IsSprinkled params carved g → g.start = origin ∧ g.DepthFirst := by
    have hcarved := (h.spanning (by omega) (by omega)).1
    have hbare := depthFirst_of_leaves hwidth hheight h
    refine ⟨hbare, fun g hg => ⟨?_, (hg.asOpen hcarved).2.depthFirst hbare⟩⟩
    obtain ⟨cells, hazards, rewards, -, rfl⟩ := hg
    rw [start_sprinkleOn, placeEnds, start_placeGoal, start_placeStart, headD_positionsOf hcarved]
  refine ⟨fun carved h => hdeep h, ?_⟩
  intro σ _ concepts s
  obtain ⟨hbare, hall⟩ := hdeep (leaves_carve params (filled params.width params.height) s)
  exact ⟨hbare, hall _ (isSprinkled_grow params concepts s)⟩

/-- On nine by six cells one of two neighbouring cells with odd coordinates is on the path to the
other. -/
theorem depthFirst_nine_by_six :
    let params := { Params.stress with width := 9, height := 6 }
    let g := grow params [] (ChaCha.ofSeed 7)
    5 ≤ params.width ∧ 5 ≤ params.height ∧
      (g.Ancestor ⟨5, 3⟩ ⟨7, 3⟩ ∨ g.Ancestor ⟨7, 3⟩ ⟨5, 3⟩) ∧
      ∃! d : Direction, g.isWalkable (g.start.step d) = true := by
  intro params g
  obtain ⟨-, hsources⟩ := depthFirst_whatever_is_drawn params (by decide) (by decide)
  obtain ⟨-, hstart, hdeep⟩ := hsources _ [] (ChaCha.ofSeed 7)
  have hleaves := leaves_carve params (filled params.width params.height) (ChaCha.ofSeed 7)
  have hopen := ((isSprinkled_grow params [] (ChaCha.ofSeed 7)).asOpen
    (hleaves.spanning (by decide) (by decide)).1).2
  have hlattice : g.OnLattice ⟨5, 3⟩ ∧ g.OnLattice ⟨7, 3⟩ := by
    rw [hopen.onLattice_iff, hopen.onLattice_iff, OnLattice, OnLattice, Interior, Interior,
      hleaves.sides.1, hleaves.sides.2]
    decide
  refine ⟨by decide, by decide, hdeep.related _ _ ⟨.right, rfl⟩ hlattice.1 hlattice.2, ?_⟩
  rw [hstart]
  exact hdeep.start

end Grid

end Labyrinth
