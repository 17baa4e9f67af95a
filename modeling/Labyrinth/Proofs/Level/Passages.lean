import Labyrinth.Level.Carve
import Labyrinth.Proofs.Level.Views

/-!
# What carving leaves behind

Whatever is drawn, carving takes steps of two kinds: it opens a candidate of the last cell
of the way, or it goes back from a cell without candidates. What both kinds of steps keep
holds at the end. All passages hang together, stay off the border, and leave out no cell
with odd coordinates, for a cell is left only when all cells two steps away are carved.
-/

namespace Labyrinth

/-- A cell is reached from another by moves over free cells only, its ends among them. -/
inductive Reaches (free : Position → Prop) (p : Position) : Position → Prop where
  /-- A free cell reaches itself. -/
  | here (hfree : free p) : Reaches free p p
  /-- A further move leads to a free cell. -/
  | move {q : Position} (d : Direction) (h : Reaches free p q) (hfree : free (q.step d)) :
      Reaches free p (q.step d)

/-- More free cells reach more. -/
theorem Reaches.mono {free free' : Position → Prop} {p q : Position} (h : Reaches free p q)
    (hmore : ∀ r, free r → free' r) : Reaches free' p q := by
  induction h with
  | here hfree => exact .here (hmore _ hfree)
  | move d _ hfree ih => exact .move d ih (hmore _ hfree)

namespace Grid

/-- A cell with odd coordinates inside the border. -/
def OnLattice (g : Grid) (p : Position) : Prop := g.Interior p ∧ p.x % 2 = 1 ∧ p.y % 2 = 1

theorem Interior.inBounds {g : Grid} {p : Position} (h : g.Interior p) : g.InBounds p := by
  simp only [Interior, InBounds] at h ⊢
  omega

/-- A cell between two cells inside the border is inside the border. -/
theorem Interior.between {g : Grid} {p : Position} {d : Direction} (hp : g.Interior p)
    (hq : g.Interior ((p.step d).step d)) : g.Interior (p.step d) := by
  cases d <;>
    simp only [Interior, Position.step, Position.offset, Direction.delta] at hp hq ⊢ <;> omega

/-- Two steps from a cell with odd coordinates lead to another. -/
theorem OnLattice.step_step {g : Grid} {p : Position} {d : Direction} (hp : g.OnLattice p)
    (hq : g.Interior ((p.step d).step d)) : g.OnLattice ((p.step d).step d) := by
  refine ⟨hq, ?_⟩
  obtain ⟨-, hx, hy⟩ := hp
  cases d <;> simp only [Position.step, Position.offset, Direction.delta] <;> omega

/-- One step from a cell with odd coordinates does not. -/
theorem OnLattice.not_step {g : Grid} {p : Position} {d : Direction} (hp : g.OnLattice p) :
    ¬ g.OnLattice (p.step d) := by
  rintro ⟨-, hx', hy'⟩
  obtain ⟨-, hx, hy⟩ := hp
  cases d <;> simp only [Position.step, Position.offset, Direction.delta] at hx' hy' <;> omega

/-- Each cell with odd coordinates but the first is two steps from a nearer one. -/
theorem OnLattice.exists_nearer {g : Grid} {p : Position} (hp : g.OnLattice p) :
    p = ⟨1, 1⟩ ∨ ∃ (q : Position) (d : Direction), g.OnLattice q ∧
      (q.x + q.y).toNat < (p.x + p.y).toNat ∧ (q.step d).step d = p := by
  obtain ⟨x, y⟩ := p
  simp only [OnLattice, Interior] at hp
  simp only [OnLattice, Interior, Position.mk.injEq]
  by_cases hleft : x = 1
  · by_cases htop : y = 1
    · exact .inl ⟨hleft, htop⟩
    · refine .inr ⟨⟨x, y - 2⟩, .down, ?_⟩
      simp only [Position.step, Position.offset, Direction.delta, Position.mk.injEq]
      omega
  · refine .inr ⟨⟨x - 2, y⟩, .right, ?_⟩
    simp only [Position.step, Position.offset, Direction.delta, Position.mk.injEq]
    omega

/-- A grid that is not carved has walls only. -/
theorem get?_filled {width height : Nat} {p : Position} {t : Tile}
    (h : (filled width height).get? p = some t) : t = .wall := by
  have hp := inBounds_of_get? h
  rw [get?_of_inBounds hp, Array.getElem?_eq_getElem (index_lt hp)] at h
  simpa [filled] using h.symm

end Grid

namespace Carve

open Grid

variable {params : Params} {g : Grid} {p q : Position}

/-- A candidate is a wall two steps away inside the border, with the cell between. -/
theorem mem_candidates {c : Candidate} (h : c ∈ candidates params g p) :
    ∃ d : Direction, c.passage = p.step d ∧ c.cell = (p.step d).step d ∧ g.Interior c.cell ∧
      g.get? c.cell = some .wall := by
  simp only [candidates, latticeNeighbours, List.mem_map, List.mem_filter, List.mem_filterMap,
    Option.ite_none_right_eq_some, Option.some.injEq] at h
  obtain ⟨n, ⟨⟨d, -, hin, rfl⟩, hwall⟩, rfl⟩ := h
  exact ⟨d, rfl, rfl, hin, is_iff.mp hwall⟩

/-- A cell without candidates has no wall two steps away inside the border. -/
theorem get?_ne_wall_of_candidates (h : candidates params g p = []) (d : Direction)
    (hin : g.Interior ((p.step d).step d)) : g.get? ((p.step d).step d) ≠ some .wall := by
  intro hwall
  have hmem : (p.step d, (p.step d).step d) ∈
      (latticeNeighbours g p).filter (fun n => g.is n.2 .wall) := by
    refine List.mem_filter.mpr ⟨?_, is_iff.mpr hwall⟩
    refine List.mem_filterMap.mpr ⟨d, Direction.mem_all d, ?_⟩
    simp only [hin, if_true]
  rw [candidates, List.map_eq_nil_iff] at h
  rw [h] at hmem
  cases hmem

/-- Induction along the steps of carving: what holds at first and is kept by a step forward and
by a step back holds when the way is empty. -/
theorem carveFrom_induction {σ : Type} [WordSource σ] {motive : Grid → List Position → Prop}
    (forward : ∀ g here back c, c ∈ candidates params g here → motive g (here :: back) →
      motive (opened g c) (c.cell :: here :: back))
    (backward : ∀ g here back, candidates params g here = [] → motive g (here :: back) →
      motive g back)
    {g : Grid} {way : List Position} (s : σ) (h : motive g way) :
    motive (carveFrom params g way s).1 [] := by
  fun_induction carveFrom params g way s with
  | case1 g s => exact h
  | case2 g s here back hnone ih => exact ih (backward g here back hnone h)
  | case3 g s here back c cs hsome u s' hu chosen ih =>
    have hchosen : chosen ∈ candidates params g here := hsome ▸ choose_mem _ c cs
    exact ih (forward g here back chosen hchosen h)

/-- Opening a candidate makes two cells plain floor and leaves all others. -/
theorem get?_opened {c : Candidate} (hcell : g.InBounds c.cell) (hpassage : g.InBounds c.passage)
    (q : Position) :
    (opened g c).get? q = if q = c.passage ∨ q = c.cell then some .path else g.get? q := by
  simp only [opened, get?_set, inBounds_set, hcell, hpassage, and_true]
  by_cases hp : q = c.passage
  · rw [if_pos hp, if_pos (.inl hp)]
  · simp only [hp, if_false, false_or]

@[simp] theorem width_opened (g : Grid) (c : Candidate) : (opened g c).width = g.width := by
  simp [opened]

@[simp] theorem height_opened (g : Grid) (c : Candidate) : (opened g c).height = g.height := by
  simp [opened]

theorem interior_opened (g : Grid) (c : Candidate) (p : Position) :
    (opened g c).Interior p ↔ g.Interior p := by simp [Interior]

theorem onLattice_opened (g : Grid) (c : Candidate) (p : Position) :
    (opened g c).OnLattice p ↔ g.OnLattice p := by simp [OnLattice, interior_opened]

/-- What holds after every step of carving. -/
structure Carved (g : Grid) (way : List Position) : Prop where
  /-- There are walls, and plain floor inside the border. -/
  floor : ∀ p t, g.get? p = some t → t = .wall ∨ (t = .path ∧ g.Interior p)
  /-- The way goes over carved cells with odd coordinates. -/
  on_way : ∀ p ∈ way, g.OnLattice p ∧ g.get? p = some .path
  /-- The floor hangs together. -/
  joined : ∀ p, g.get? p = some .path → Reaches (g.get? · = some .path) origin p
  /-- Where carving went back, everything two steps away is carved. -/
  explored : ∀ p, g.OnLattice p → g.get? p = some .path → p ∉ way →
    ∀ d : Direction, g.Interior ((p.step d).step d) → g.get? ((p.step d).step d) = some .path
  /-- Carving began. -/
  begun : g.OnLattice origin ∧ g.get? origin = some .path

/-- Before the first step only the origin is carved. -/
theorem carved_start {width height : Nat} (hwidth : 3 ≤ width) (hheight : 3 ≤ height) :
    Carved ((filled width height).set origin .path) [origin] := by
  have horigin : (filled width height).Interior origin := by
    simp only [Interior, filled, origin]
    omega
  have hget (q : Position) : ((filled width height).set origin .path).get? q =
      if q = origin then some .path else (filled width height).get? q := by
    rw [get?_set]
    simp only [horigin.inBounds, and_true]
  have hself := get?_set_self (t := Tile.path) horigin.inBounds
  have hinterior : ((filled width height).set origin .path).Interior origin := by
    simpa [Interior] using horigin
  have hlattice : ((filled width height).set origin .path).OnLattice origin :=
    ⟨hinterior, rfl, rfl⟩
  have honly {p : Position} (hp : ((filled width height).set origin .path).get? p = some .path) :
      p = origin := by
    rw [hget] at hp
    split at hp
    · assumption
    · cases get?_filled hp
  refine ⟨?_, ?_, ?_, ?_, hlattice, hself⟩
  · intro p t hp
    rw [hget] at hp
    split at hp
    · rename_i heq
      cases hp
      exact .inr ⟨rfl, heq ▸ hinterior⟩
    · exact .inl (get?_filled hp)
  · intro p hp
    rw [List.mem_singleton] at hp
    subst hp
    exact ⟨hlattice, hself⟩
  · intro p hp
    rw [honly hp]
    exact .here hself
  · intro p _ hp hway
    rw [honly hp] at hway
    exact absurd List.mem_cons_self hway

/-- The cell of a candidate has odd coordinates, the cell before it has not, and both are inside
the border. -/
theorem Carved.of_mem_candidates {here : Position} {back : List Position} {c : Candidate}
    (h : Carved g (here :: back)) (hc : c ∈ candidates params g here) :
    g.OnLattice c.cell ∧ g.Interior c.passage ∧ ¬ g.OnLattice c.passage := by
  obtain ⟨d, hpassage, hcell, hin, -⟩ := mem_candidates hc
  obtain ⟨hhere, -⟩ := h.on_way here List.mem_cons_self
  rw [hcell] at hin ⊢
  rw [hpassage]
  exact ⟨hhere.step_step hin, hhere.1.between hin, hhere.not_step⟩

/-- What was floor stays floor. -/
theorem get?_opened_of_path {c : Candidate} (hcell : g.InBounds c.cell)
    (hpassage : g.InBounds c.passage) (hp : g.get? p = some .path) :
    (opened g c).get? p = some .path := by
  rw [get?_opened hcell hpassage]
  split
  · rfl
  · exact hp

/-- Opening a candidate of a cell in reach leaves all floor in reach. -/
theorem Carved.joined_opened {here : Position} {back : List Position} {c : Candidate}
    (h : Carved g (here :: back)) (hc : c ∈ candidates params g here)
    (hp : (opened g c).get? p = some .path) :
    Reaches ((opened g c).get? · = some .path) origin p := by
  obtain ⟨hlattice, hbetween, -⟩ := h.of_mem_candidates hc
  obtain ⟨d, hpassage, hcell, -, -⟩ := mem_candidates hc
  obtain ⟨-, hpath⟩ := h.on_way here List.mem_cons_self
  have hget := get?_opened hlattice.1.inBounds hbetween.inBounds
  have hold {q : Position} (hq : g.get? q = some .path) :
      Reaches ((opened g c).get? · = some .path) origin q :=
    (h.joined q hq).mono fun r =>
      get?_opened_of_path hlattice.1.inBounds hbetween.inBounds
  have hfirst : Reaches ((opened g c).get? · = some .path) origin c.passage := by
    have htile : (opened g c).get? c.passage = some .path := by rw [hget, if_pos (.inl rfl)]
    rw [hpassage] at htile ⊢
    exact .move d (hold hpath) htile
  by_cases hnew : p = c.passage ∨ p = c.cell
  · rcases hnew with rfl | rfl
    · exact hfirst
    · rw [hpassage] at hfirst
      rw [hcell] at hp ⊢
      exact .move d hfirst hp
  · rw [hget, if_neg hnew] at hp
    exact hold hp

/-- A step forward keeps all this. -/
theorem Carved.opened {here : Position} {back : List Position} {c : Candidate}
    (h : Carved g (here :: back)) (hc : c ∈ candidates params g here) :
    Carved (opened g c) (c.cell :: here :: back) := by
  obtain ⟨hlattice, hbetween, hoff⟩ := h.of_mem_candidates hc
  have hget := get?_opened hlattice.1.inBounds hbetween.inBounds
  have hkept {p : Position} (hp : g.get? p = some .path) :
      (Carve.opened g c).get? p = some .path :=
    get?_opened_of_path hlattice.1.inBounds hbetween.inBounds hp
  refine ⟨?_, ?_, fun p hp => h.joined_opened hc hp, ?_, ?_⟩
  · intro p t hp
    rw [interior_opened]
    rw [hget] at hp
    split at hp
    · rename_i hnew
      cases hp
      rcases hnew with rfl | rfl
      · exact .inr ⟨rfl, hbetween⟩
      · exact .inr ⟨rfl, hlattice.1⟩
    · exact h.floor p t hp
  · intro p hp
    rw [onLattice_opened]
    rcases List.mem_cons.mp hp with rfl | hp
    · exact ⟨hlattice, by rw [hget, if_pos (.inr rfl)]⟩
    · obtain ⟨hold, hpath⟩ := h.on_way p hp
      exact ⟨hold, hkept hpath⟩
  · intro p hp hpath hway d hin
    rw [onLattice_opened] at hp
    rw [interior_opened] at hin
    rw [List.mem_cons, not_or] at hway
    refine hkept (h.explored p hp ?_ hway.2 d hin)
    -- the passage is no cell with odd coordinates, so this one was carved before
    have hne : p ≠ c.passage := by
      rintro rfl
      exact hoff hp
    rw [hget, if_neg (not_or.mpr ⟨hne, hway.1⟩)] at hpath
    exact hpath
  · rw [onLattice_opened]
    exact ⟨h.begun.1, hkept h.begun.2⟩

/-- A step back keeps all this. -/
theorem Carved.back {here : Position} {back : List Position} (h : Carved g (here :: back))
    (hnone : candidates params g here = []) : Carved g back := by
  refine ⟨h.floor, fun p hp => h.on_way p (List.mem_cons_of_mem _ hp), h.joined, ?_, h.begun⟩
  intro p hp hpath hway d hin
  by_cases hhere : p = here
  · subst hhere
    have hne := get?_ne_wall_of_candidates hnone d hin
    obtain ⟨t, ht⟩ := exists_get?_iff.mpr hin.inBounds
    rcases h.floor _ t ht with rfl | ⟨rfl, -⟩
    · exact absurd ht hne
    · exact ht
  · exact h.explored p hp hpath (by simp [hhere, hway]) d hin

/-- No cell with odd coordinates inside the border is left out. -/
theorem Carved.get?_of_onLattice (h : Carved g []) (hp : g.OnLattice p) :
    g.get? p = some .path := by
  generalize hn : (p.x + p.y).toNat = n
  induction n using Nat.strongRecOn generalizing p with
  | ind n ih =>
    rcases hp.exists_nearer with rfl | ⟨q, d, hq, hlt, rfl⟩
    · exact h.begun.2
    · have hnear := ih _ (by omega) hq rfl
      exact h.explored q hq hnear List.not_mem_nil d hp.1

end Carve

end Labyrinth
