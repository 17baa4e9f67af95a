import Mathlib.Data.Set.Card
import Mathlib.Logic.Relation
import Labyrinth.Proofs.Level.Trees

/-!
# Carving in every order

A step of carving opens any candidate of the last cell of the way, or goes back where there is
none; `Step` leaves the draw open. Steps come to an end (`wellFounded_step`), and what they keep
holds of everything that carving can leave (`Leaves`): the floor has no cycle, each floor cell off
the odd coordinates lies between two carved cells, and there is one fewer of them than of those
(`Spanning`).
-/

namespace Labyrinth

/-- A cell is plain floor. -/
abbrev Grid.IsFloor (g : Grid) (p : Position) : Prop := g.get? p = some .path

namespace Grid

variable {g : Grid} {p q : Position} {d e : Direction}

/-- A cell between two cells with odd coordinates lies between no others. -/
theorem OnLattice.of_step_eq_step (hp : g.OnLattice p) (hq : g.OnLattice q)
    (h : p.step d = q.step e) :
    q = p ∧ (q.step e).step e = (p.step d).step d ∨
      q = (p.step d).step d ∧ (q.step e).step e = p := by
  obtain ⟨-, hpx, hpy⟩ := hp
  obtain ⟨-, hqx, hqy⟩ := hq
  obtain ⟨px, py⟩ := p
  obtain ⟨qx, qy⟩ := q
  cases d <;> cases e <;>
    simp only [Position.step, Position.offset, Direction.delta, Position.mk.injEq] at * <;> omega

/-- Two steps from a cell with odd coordinates lead back, straight on, or to even coordinates. -/
theorem OnLattice.step_step_cases (hp : g.OnLattice p) (d e : Direction) :
    (p.step d).step e = p ∨ (p.step d).step e = (p.step d).step d ∨
      ((p.step d).step e).x % 2 = 0 ∧ ((p.step d).step e).y % 2 = 0 := by
  rcases eq_or_ne d e with rfl | hde
  · exact .inr (.inl rfl)
  obtain ⟨-, hpx, hpy⟩ := hp
  obtain ⟨px, py⟩ := p
  cases d <;> cases e <;> simp only [Position.step, Position.offset, Direction.delta,
    Position.mk.injEq, ne_eq, not_true_eq_false] at * <;> omega

/-- Only finitely many cells are floor. -/
theorem finite_floor (g : Grid) (P : Position → Prop) : {p | g.IsFloor p ∧ P p}.Finite := by
  refine (g.positionsOf .path).finite_toSet.subset ?_
  intro p hp
  exact mem_positionsOf.mpr hp.1

end Grid

namespace Carve

open Grid

variable {params : Params} {g : Grid} {p q : Position} {d : Direction}

/-- A step of carving, with nothing said about the draw. -/
inductive Step (params : Params) : Grid × List Position → Grid × List Position → Prop where
  /-- Some candidate of the last cell of the way is opened. -/
  | forward {g : Grid} {here : Position} {back : List Position} {c : Candidate}
    (hc : c ∈ candidates params g here) :
    Step params (g, here :: back) (opened g c, c.cell :: here :: back)
  /-- The last cell of the way has no candidates and is left. -/
  | back {g : Grid} {here : Position} {back : List Position}
    (hnone : candidates params g here = []) : Step params (g, here :: back) (g, back)

/-- Every step leaves less to be done. -/
theorem Step.measure_lt {s t : Grid × List Position} (h : Step params s t) :
    2 * t.1.wallCount + t.2.length < 2 * s.1.wallCount + s.2.length := by
  cases h with
  | forward hc =>
    have hfewer := wallCount_opened_lt (is_wall_of_mem_candidates hc)
    simp only [List.length_cons]
    omega
  | back =>
    simp only [List.length_cons]
    omega

/-- Steps of carving cannot go on for ever, whatever is drawn. -/
theorem wellFounded_step (params : Params) : WellFounded fun s t => Step params t s :=
  Subrelation.wf Step.measure_lt
    (measure fun s : Grid × List Position => 2 * s.1.wallCount + s.2.length).wf

/-- As long as the way is not empty, a step can be taken. -/
theorem exists_step (params : Params) (g : Grid) (here : Position) (back : List Position) :
    ∃ t, Step params (g, here :: back) t := by
  cases h : candidates params g here with
  | nil => exact ⟨_, .back h⟩
  | cons c cs =>
    have hc : c ∈ candidates params g here := by
      rw [h]
      exact List.mem_cons_self
    exact ⟨_, .forward hc⟩

/-- Carving can leave this of a grid: some steps from the origin come back to an empty way. -/
def Leaves (params : Params) (g g' : Grid) : Prop :=
  Relation.ReflTransGen (Step params) (g.set origin .path, [origin]) (g', [])

/-- Whatever a source delivers, carving takes such steps. -/
theorem leaves_carve {σ : Type} [WordSource σ] (params : Params) (g : Grid) (s : σ) :
    Leaves params g (g.carve params s).1 :=
  carveFrom_induction
    (motive := fun g' way =>
      Relation.ReflTransGen (Step params) (g.set origin .path, [origin]) (g', way))
    (fun _ _ _ _ hc h => h.tail (.forward hc)) (fun _ _ _ hnone h => h.tail (.back hnone)) s .refl

/-- What holds at first and is kept by steps forward and back holds of all that carving can
leave. -/
theorem Leaves.induction {motive : Grid → List Position → Prop} {g g' : Grid}
    (h : Leaves params g g') (start : motive (g.set origin .path) [origin])
    (forward : ∀ g here back c, c ∈ candidates params g here → motive g (here :: back) →
      motive (opened g c) (c.cell :: here :: back))
    (backward : ∀ g here back, candidates params g here = [] → motive g (here :: back) →
      motive g back) : motive g' [] := by
  suffices hall : ∀ s, Relation.ReflTransGen (Step params) (g.set origin .path, [origin]) s →
      motive s.1 s.2 from hall _ h
  intro s hs
  induction hs with
  | refl => exact start
  | tail _ hstep ih =>
    cases hstep with
    | forward hc => exact forward _ _ _ _ hc ih
    | back hnone => exact backward _ _ _ hnone ih

/-- A floor cell lies between two carved cells with odd coordinates. -/
def Between (g : Grid) (p : Position) : Prop :=
  ∃ q d, (g.OnLattice q ∧ g.IsFloor q) ∧
    (g.OnLattice ((q.step d).step d) ∧ g.IsFloor ((q.step d).step d)) ∧ p = q.step d

/-- What holds of the floor after every step of carving. -/
structure Spanning (g : Grid) : Prop where
  /-- It has no cycle. -/
  acyclic : (cellGraph g.IsFloor).IsAcyclic
  /-- Off the odd coordinates it is between two cells. -/
  passage : ∀ p, g.IsFloor p → ¬ g.OnLattice p → Between g p
  /-- There is one fewer such cell than cells with odd coordinates. -/
  counted : {p | g.IsFloor p ∧ ¬ g.OnLattice p}.ncard + 1 = {p | g.IsFloor p ∧ g.OnLattice p}.ncard

/-- Before the first step only the origin is floor. -/
theorem isFloor_start {width height : Nat} (hwidth : 3 ≤ width) (hheight : 3 ≤ height) :
    ((filled width height).set origin .path).IsFloor p ↔ p = origin := by
  constructor
  · intro hp
    rw [IsFloor, get?_set] at hp
    split at hp
    · rename_i h
      exact h.1
    · cases get?_filled hp
  · rintro rfl
    exact (carved_start hwidth hheight).begun.2

theorem spanning_start {width height : Nat} (hwidth : 3 ≤ width) (hheight : 3 ≤ height) :
    Spanning ((filled width height).set origin .path) := by
  have hcarved := carved_start hwidth hheight
  have honly {p : Position} := isFloor_start (p := p) hwidth hheight
  refine ⟨?_, ?_, ?_⟩
  · have hbot : cellGraph ((filled width height).set origin .path).IsFloor = ⊥ := by
      ext p q
      rw [cellGraph_adj, honly, honly, SimpleGraph.bot_adj, iff_false]
      rintro ⟨rfl, rfl, hbeside⟩
      exact hbeside.ne rfl
    rw [hbot]
    exact SimpleGraph.isAcyclic_bot
  · intro p hp hoff
    rw [honly.mp hp] at hoff
    exact absurd hcarved.begun.1 hoff
  · have hnone : {p | ((filled width height).set origin .path).IsFloor p ∧
        ¬ ((filled width height).set origin .path).OnLattice p} = ∅ := by
      ext p
      simp only [Set.mem_ofPred_eq, Set.mem_empty_iff_false, iff_false, not_and, not_not]
      intro hp
      rw [honly.mp hp]
      exact hcarved.begun.1
    have hone : {p | ((filled width height).set origin .path).IsFloor p ∧
        ((filled width height).set origin .path).OnLattice p} = {origin} := by
      ext p
      simp only [Set.mem_ofPred_eq, Set.mem_singleton_iff]
      constructor
      · rintro ⟨hp, -⟩
        exact honly.mp hp
      · rintro rfl
        exact ⟨honly.mpr rfl, hcarved.begun.1⟩
    rw [hnone, hone, Set.ncard_empty, Set.ncard_singleton]

/-- Beside a cell with odd coordinates that is not carved there is no floor. -/
theorem Spanning.not_isFloor_step (h : Spanning g) (hp : g.OnLattice p) (hwall : ¬ g.IsFloor p)
    (d : Direction) : ¬ g.IsFloor (p.step d) := by
  intro hfloor
  obtain ⟨q, e, ⟨hq, hqfloor⟩, ⟨-, hendfloor⟩, heq⟩ := h.passage _ hfloor hp.not_step
  rcases hp.of_step_eq_step hq heq with ⟨rfl, -⟩ | ⟨-, hend⟩
  · exact hwall hqfloor
  · rw [hend] at hendfloor
    exact hwall hendfloor

/-- Floor has an odd coordinate. -/
theorem Spanning.odd (h : Spanning g) (hp : g.IsFloor p) : p.x % 2 = 1 ∨ p.y % 2 = 1 := by
  by_cases hlattice : g.OnLattice p
  · exact .inl hlattice.2.1
  · obtain ⟨q, d, ⟨hq, -⟩, -, rfl⟩ := h.passage p hp hlattice
    obtain ⟨-, hx, hy⟩ := hq
    cases d <;> simp only [Position.step, Position.offset, Direction.delta] <;> omega

section

variable {here : Position} {back : List Position} {c : Candidate}

/-- Opening a candidate makes its cell and the cell between floor. -/
theorem isFloor_opened (hcarved : Carved g (here :: back)) (hc : c ∈ candidates params g here) :
    (opened g c).IsFloor q ↔ q = c.cell ∨ q = c.passage ∨ g.IsFloor q := by
  obtain ⟨hlattice, hbetween, -⟩ := hcarved.of_mem_candidates hc
  rw [IsFloor, get?_opened hlattice.1.inBounds hbetween.inBounds]
  by_cases hpassage : q = c.passage
  · simp [hpassage]
  · by_cases hcell : q = c.cell
    · simp [hcell]
    · simp [hpassage, hcell]

theorem isFloor_opened_eq (hcarved : Carved g (here :: back)) (hc : c ∈ candidates params g here) :
    (opened g c).IsFloor = fun q => q = c.cell ∨ q = c.passage ∨ g.IsFloor q :=
  funext fun _ => propext (isFloor_opened hcarved hc)

/-- The cell between hangs on the last cell of the way, and the candidate on the cell between. -/
theorem Spanning.hangsOn (h : Spanning g) (hcarved : Carved g (here :: back))
    (hc : c ∈ candidates params g here) :
    HangsOn g.IsFloor c.passage here ∧
      HangsOn (fun q => q = c.passage ∨ g.IsFloor q) c.cell c.passage := by
  obtain ⟨hlattice, -, -⟩ := hcarved.of_mem_candidates hc
  obtain ⟨hhere, hfloor⟩ := hcarved.on_way here List.mem_cons_self
  obtain ⟨d, hpassage, hcell, -, hwall⟩ := mem_candidates hc
  have hclosed : ¬ g.IsFloor c.cell := by
    rw [IsFloor, hwall]
    exact nofun
  have hbeside : c.passage.Beside c.cell := by
    rw [hpassage, hcell]
    exact Position.beside_step _ d
  have haround {q : Position} (hq : c.cell.Beside q) : ¬ g.IsFloor q := by
    obtain ⟨e, rfl⟩ := hq
    exact h.not_isFloor_step hlattice hclosed e
  refine ⟨⟨haround hbeside.symm, hfloor, ?_, ?_⟩, ⟨?_, .inl rfl, hbeside, ?_⟩⟩
  · rw [hpassage]
    exact Position.beside_step _ d
  · rintro q hq ⟨e, rfl⟩
    rw [hpassage] at hq ⊢
    rcases hhere.step_step_cases d e with hback | hon | ⟨hx, hy⟩
    · exact hback
    · rw [hon, ← hcell] at hq
      exact absurd hq hclosed
    · -- the other two neighbours have even coordinates
      rcases h.odd hq with hodd | hodd <;> omega
  · rintro (heq | hfloor')
    · exact hbeside.ne heq.symm
    · exact hclosed hfloor'
  · rintro q (rfl | hq) hcq
    · rfl
    · exact absurd hq (haround hcq)

/-- A step forward keeps all this. -/
theorem Spanning.opened (h : Spanning g) (hcarved : Carved g (here :: back))
    (hc : c ∈ candidates params g here) : Spanning (opened g c) := by
  obtain ⟨hlattice, -, hoff⟩ := hcarved.of_mem_candidates hc
  obtain ⟨hhere, hherefloor⟩ := hcarved.on_way here List.mem_cons_self
  obtain ⟨d, hpassage, hcell, -, -⟩ := mem_candidates hc
  obtain ⟨hfirst, hsecond⟩ := h.hangsOn hcarved hc
  have hfloor {q : Position} := isFloor_opened (q := q) hcarved hc
  have hmore {q : Position} (hq : g.IsFloor q) : (Carve.opened g c).IsFloor q :=
    hfloor.mpr (.inr (.inr hq))
  refine ⟨?_, ?_, ?_⟩
  · rw [isFloor_opened_eq hcarved hc]
    exact hsecond.isAcyclic (hfirst.isAcyclic h.acyclic)
  · intro p hp hplattice
    rw [onLattice_opened] at hplattice
    rcases hfloor.mp hp with rfl | rfl | hp
    · exact absurd hlattice hplattice
    · refine ⟨here, d, ⟨?_, hmore hherefloor⟩, ⟨?_, ?_⟩, hpassage⟩
      · rwa [onLattice_opened]
      · rwa [onLattice_opened, ← hcell]
      · rw [← hcell]
        exact hfloor.mpr (.inl rfl)
    · obtain ⟨q, e, ⟨hq, hqfloor⟩, ⟨hend, hendfloor⟩, rfl⟩ := h.passage p hp hplattice
      refine ⟨q, e, ⟨?_, hmore hqfloor⟩, ⟨?_, hmore hendfloor⟩, rfl⟩
      · rwa [onLattice_opened]
      · rwa [onLattice_opened]
  · have hpassages : {p | (Carve.opened g c).IsFloor p ∧ ¬ (Carve.opened g c).OnLattice p} =
        insert c.passage {p | g.IsFloor p ∧ ¬ g.OnLattice p} := by
      ext p
      rw [Set.mem_insert_iff, Set.mem_ofPred_eq, Set.mem_ofPred_eq, onLattice_opened, hfloor]
      by_cases hcell : p = c.cell
      · simp [hcell, hlattice, hsecond.beside.ne.symm]
      · by_cases hp : p = c.passage
        · simp [hp, hoff]
        · simp only [hp, hcell, false_or]
    have hcells : {p | (Carve.opened g c).IsFloor p ∧ (Carve.opened g c).OnLattice p} =
        insert c.cell {p | g.IsFloor p ∧ g.OnLattice p} := by
      ext p
      rw [Set.mem_insert_iff, Set.mem_ofPred_eq, Set.mem_ofPred_eq, onLattice_opened, hfloor]
      by_cases hcell : p = c.cell
      · simp [hcell, hlattice]
      · by_cases hp : p = c.passage
        · simp [hp, hoff, hsecond.beside.ne]
        · simp only [hp, hcell, false_or]
    rw [hpassages, hcells, Set.ncard_insert_of_notMem _ (g.finite_floor _),
      Set.ncard_insert_of_notMem _ (g.finite_floor _), h.counted]
    · exact fun hmem => hsecond.closed (.inr hmem.1)
    · exact fun hmem => hfirst.closed hmem.1

end

/-- All that carving can leave is carved and spanned. -/
theorem Leaves.spanning {width height : Nat} (hwidth : 3 ≤ width) (hheight : 3 ≤ height)
    (h : Leaves params (filled width height) g) : Carved g [] ∧ Spanning g := by
  refine h.induction (motive := fun g way => Carved g way ∧ Spanning g)
    ⟨carved_start hwidth hheight, spanning_start hwidth hheight⟩ ?_ ?_
  · rintro g here back c hc ⟨hcarved, hspanning⟩
    exact ⟨hcarved.opened hc, hspanning.opened hcarved hc⟩
  · rintro g here back hnone ⟨hcarved, hspanning⟩
    exact ⟨hcarved.back hnone, hspanning⟩

/-- Carving leaves the sides of a grid. -/
theorem Leaves.sides {g' : Grid} (h : Leaves params g g') :
    g'.width = g.width ∧ g'.height = g.height := by
  refine h.induction (motive := fun g' _ => g'.width = g.width ∧ g'.height = g.height)
    ⟨width_set, height_set⟩ ?_ (fun _ _ _ _ h => h)
  intro g' here back c _ hsides
  exact ⟨(width_opened g' c).trans hsides.1, (height_opened g' c).trans hsides.2⟩

end Carve

end Labyrinth
