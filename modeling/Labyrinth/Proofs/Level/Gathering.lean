import Labyrinth.Proofs.Level.Spawning

/-!
# As many strawberries as there are cells for them

The cells of the strawberries are a set that is filled from two sources: the cells made for them,
row by row, and then a pool from which a cell is drawn at a time. A cell that is drawn is new to the
set, since no cell is twice in the pool and none in it is in the set; so each draw adds one cell,
and the filling ends only when there are enough or the pool is empty, whatever is drawn.
-/

namespace Labyrinth

namespace Spawn

variable {σ : Type}

/-- Fills a set of cells up to a number from a pool, or until the pool is empty. From a state,
`draw` gives the place of a cell in a pool of so many; the last cell takes the place of that one. -/
def fill (draw : Nat → σ → Nat × σ) (target : Nat) (used : OrderedSet Position)
    (pool : Array Position) (s : σ) : OrderedSet Position :=
  if used.size < target ∧ 0 < pool.size then
    let (i, s) := draw pool.size s
    match pool[i]? with
    | none => used
    | some p => fill draw target (used.insert p) (pool.swapIfInBounds i (pool.size - 1)).pop s
  else used
termination_by pool.size
decreasing_by
  rename_i h
  rw [Array.size_pop, Array.size_swapIfInBounds]
  omega

/-- The cells of the strawberries of a grid, with a set that is filled: first with the cells made
for them, as far as so many are needed, and then with plain cells that are not to be avoided. -/
def gather (draw : Nat → σ → Nat × σ) (g : Grid) (concepts : List Concept)
    (avoid : OrderedSet Position) (s : σ) : OrderedSet Position :=
  let target := collectibleTarget g.cellCount concepts
  fill draw target (.ofList ((g.positionsOf .reward).take target))
    ((g.positionsOf .path).filter (· ∉ avoid)).toArray s

/-- The cells of a pool are different, and new to a set. -/
structure Supplies (pool : Array Position) (used : OrderedSet Position) : Prop where
  /-- No cell is twice in the pool. -/
  nodup : pool.toList.Nodup
  /-- No cell in the pool is in the set. -/
  new : ∀ p ∈ pool.toList, p ∉ used

section

variable {pool : Array Position} {used : OrderedSet Position} {i : Nat} {p : Position}

/-- A cell of the pool makes the set greater by one. -/
theorem Supplies.toList_insert (h : Supplies pool used) (hp : pool[i]? = some p) :
    (used.insert p).toList = used.toList ++ [p] :=
  OrderedSet.toList_insert_of_not_mem
    (h.new p ((perm_cons_pop hp).subset List.mem_cons_self))

theorem Supplies.size_insert (h : Supplies pool used) (hp : pool[i]? = some p) :
    (used.insert p).size = used.size + 1 := by
  rw [OrderedSet.size, h.toList_insert hp, List.length_append]
  rfl

/-- What is left of the pool is different and new to the set with the cell taken out. -/
theorem Supplies.take (h : Supplies pool used) (hp : pool[i]? = some p) :
    Supplies (pool.swapIfInBounds i (pool.size - 1)).pop (used.insert p) := by
  have hperm := perm_cons_pop hp
  obtain ⟨hout, hnodup⟩ := List.nodup_cons.mp (hperm.nodup_iff.mpr h.nodup)
  refine ⟨hnodup, fun q hq hmem => ?_⟩
  rcases OrderedSet.mem_insert.mp hmem with hused | rfl
  · exact h.new q (hperm.subset (List.mem_cons_of_mem p hq)) hused
  · exact hout hq

end

/-- Filling adds different cells of the pool, as many as are missing or as there are. -/
theorem exists_fill {draw : Nat → σ → Nat × σ} (hdraw : ∀ k s, 0 < k → (draw k s).1 < k)
    (target : Nat) {used : OrderedSet Position} {pool : Array Position} (h : Supplies pool used)
    (s : σ) :
    ∃ drawn left, (fill draw target used pool s).toList = used.toList ++ drawn ∧
      (drawn ++ left).Perm pool.toList ∧ drawn.length = min (target - used.size) pool.size := by
  fun_induction fill draw target used pool s with
  | case1 used pool s hmore i s' hi hnone =>
    have hlt := hdraw pool.size s hmore.2
    rw [hi] at hlt
    rw [Array.getElem?_eq_none_iff] at hnone
    omega
  | case2 used pool s hmore i s' hi p hp ih =>
    obtain ⟨drawn, left, hlist, hperm, hlength⟩ := ih (h.take hp)
    refine ⟨p :: drawn, left, ?_, (hperm.cons p).trans (perm_cons_pop hp), ?_⟩
    · rw [hlist, h.toList_insert hp, List.append_assoc, List.singleton_append]
    · rw [List.length_cons, hlength, h.size_insert hp, Array.size_pop, Array.size_swapIfInBounds]
      omega
  | case3 used pool s hmore =>
    refine ⟨[], pool.toList, (List.append_nil _).symm, .rfl, ?_⟩
    rw [List.length_nil]
    omega

/-- Filling with words adds the cells that are drawn with them. -/
theorem toList_fill_below [WordSource σ] {target : Nat} {used : OrderedSet Position}
    {pool : Array Position} (h : Supplies pool used) (s : σ) :
    (fill WordSource.below target used pool s).toList =
      used.toList ++ drawCells (target - used.size) pool s := by
  fun_induction fill WordSource.below target used pool s with
  | case1 used pool s hmore i s' hi hnone =>
    obtain ⟨fewer, hfewer⟩ : ∃ fewer, target - used.size = fewer + 1 :=
      ⟨target - used.size - 1, by omega⟩
    have hempty : ¬ pool.isEmpty = true := by simpa using Nat.ne_of_gt hmore.2
    rw [hfewer, drawCells, if_neg hempty, hi]
    simp only [hnone, List.append_nil]
  | case2 used pool s hmore i s' hi p hp ih =>
    have hsize : (used.insert p).size = used.size + 1 := h.size_insert hp
    obtain ⟨fewer, hfewer⟩ : ∃ fewer, target - used.size = fewer + 1 :=
      ⟨target - used.size - 1, by omega⟩
    have hempty : ¬ pool.isEmpty = true := by simpa using Nat.ne_of_gt hmore.2
    have hless : target - (used.insert p).size = fewer := by omega
    rw [ih (h.take hp), h.toList_insert hp, hless, hfewer, drawCells, if_neg hempty, hi]
    simp only [hp, List.append_assoc, List.singleton_append]
  | case3 used pool s hmore =>
    by_cases hneed : used.size < target
    · have hempty : pool.isEmpty = true := by
        simp only [Array.isEmpty_iff_size_eq_zero]
        omega
      obtain ⟨fewer, hfewer⟩ : ∃ fewer, target - used.size = fewer + 1 :=
        ⟨target - used.size - 1, by omega⟩
      rw [hfewer, drawCells, if_pos hempty, List.append_nil]
    · have henough : target - used.size = 0 := by omega
      rw [henough, drawCells, List.append_nil]

/-- The pool of a grid has different cells, and none that was made for a strawberry. -/
theorem supplies_grid (g : Grid) (avoid : OrderedSet Position) (k : Nat) :
    Supplies ((g.positionsOf .path).filter (· ∉ avoid)).toArray
      (.ofList ((g.positionsOf .reward).take k)) := by
  refine ⟨(g.nodup_positionsOf .path).filter _, fun p hp hmem => ?_⟩
  have hpath : g.get? p = some .path := Grid.mem_positionsOf.mp (List.mem_filter.mp hp).1
  have hreward : g.get? p = some .reward :=
    Grid.mem_positionsOf.mp (List.mem_of_mem_take (OrderedSet.mem_ofList.mp hmem))
  rw [hpath] at hreward
  cases hreward

/-- The cells made for strawberries are put in row by row. -/
theorem toList_ofList_rewards (g : Grid) (k : Nat) :
    (OrderedSet.ofList ((g.positionsOf .reward).take k)).toList =
      (g.positionsOf .reward).take k := by
  rw [OrderedSet.toList_ofList, OrderedSet.eraseDups_of_nodup]
  exact (g.nodup_positionsOf .reward).sublist (List.take_sublist k _)

/-- Whatever is drawn, a grid has as many strawberries as it should have, or as there are cells made
for them and plain cells that are not to be avoided. No cell has two. Those on the first cells made
for them come first, row by row, as far as so many are wanted; all others are on plain cells that
are not to be avoided. This is so of the strawberries that are drawn with words. -/
theorem strawberries_whatever_is_drawn (draw : Nat → σ → Nat × σ)
    (hdraw : ∀ k s, 0 < k → (draw k s).1 < k) (g : Grid) (concepts : List Concept)
    (avoid : OrderedSet Position) (s : σ) :
    let target := collectibleTarget g.cellCount concepts
    let placed := min target (g.count .reward)
    let found := (gather draw g concepts avoid s).toList
    found.length =
        min target (g.count .reward + (g.positionsOf .path).countP (· ∉ avoid)) ∧
      found.Nodup ∧
      found.take placed = (g.positionsOf .reward).take placed ∧
      (∀ p ∈ found.drop placed, g.get? p = some .path ∧ p ∉ avoid) ∧
      ∀ (τ : Type) [WordSource τ] (t : τ),
        collectibles g concepts avoid t =
          (gather WordSource.below g concepts avoid t).toList := by
  intro target placed found
  have hsupplies := supplies_grid g avoid target
  obtain ⟨drawn, left, hfound, hperm, hlength⟩ := exists_fill hdraw target hsupplies s
  have hfirst : ((g.positionsOf .reward).take target).length = placed := by
    rw [List.length_take, ← g.count_eq_length_positionsOf]
  have hplaced : (g.positionsOf .reward).take placed = (g.positionsOf .reward).take target := by
    rw [← hfirst, List.length_take]
    exact List.take_eq_take_min.symm
  rw [toList_ofList_rewards] at hfound
  rw [OrderedSet.size, toList_ofList_rewards, hfirst, List.size_toArray,
    ← List.countP_eq_length_filter] at hlength
  have hfound : found = (g.positionsOf .reward).take target ++ drawn := hfound
  refine ⟨?_, OrderedSet.nodup _, ?_, fun p hp => ?_, fun τ _ t => ?_⟩
  · rw [hfound, List.length_append, hfirst, hlength]
    omega
  · rw [hfound, hplaced, List.take_left' hfirst]
  · rw [hfound, List.drop_left' hfirst] at hp
    have hpool := hperm.subset (List.mem_append_left left hp)
    simpa using hpool
  · rw [gather, toList_fill_below (supplies_grid g avoid _), OrderedSet.size,
      toList_ofList_rewards]
    rfl

/-- Of three plain cells that are not to be avoided two are drawn, after the one cell that was made
for a strawberry. -/
theorem strawberries_three_by_two :
    let g := ((Grid.filled 3 2).setAll [⟨0, 0⟩, ⟨1, 0⟩, ⟨0, 1⟩, ⟨1, 1⟩] .path).set ⟨2, 0⟩ .reward
    let avoid : OrderedSet Position := .ofList [⟨1, 0⟩]
    let draw : Nat → Nat → Nat × Nat := fun k s => (s % k, s + 1)
    let found := (gather draw g [] avoid 4).toList
    (∀ k s, 0 < k → (draw k s).1 < k) ∧ found.length = 3 ∧ found.take 1 = [⟨2, 0⟩] ∧
      ∀ p ∈ found.drop 1, g.get? p = some .path ∧ p ∉ avoid := by
  intro g avoid draw found
  have hdraw : ∀ k s, 0 < k → (draw k s).1 < k := fun k s hk => Nat.mod_lt s hk
  have htarget : collectibleTarget g.cellCount [] = 3 := by decide +kernel
  have hrewards : g.positionsOf .reward = [⟨2, 0⟩] := by decide +kernel
  have hfree : (g.positionsOf .path).countP (· ∉ avoid) = 3 := by decide +kernel
  obtain ⟨hlength, -, hplaced, hdrawn, -⟩ :=
    strawberries_whatever_is_drawn draw hdraw g [] avoid 4
  rw [htarget, g.count_eq_length_positionsOf, hrewards] at hlength hplaced hdrawn
  rw [hfree] at hlength
  exact ⟨hdraw, hlength, hplaced, hdrawn⟩

end Spawn

end Labyrinth
