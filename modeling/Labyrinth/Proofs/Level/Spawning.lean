import Labyrinth.Level.Spawn
import Labyrinth.Proofs.Level.Views

/-!
# Where enemies and strawberries are put

Enemies stand on a part of the plain cells off the border, taken row by row and never more
than asked for. A strawberry that is drawn leaves the pool, so what was drawn and what is
left in the pool is the pool in another order, and no cell is drawn twice.
-/

namespace Labyrinth

namespace Spawn

variable {σ : Type} [WordSource σ]

/-- Chance takes some of the cells, in their order. -/
theorem takeByChance_sublist (chance : Float) (most : Nat) (s : σ) (ps : List Position) :
    (takeByChance chance most s ps).Sublist ps := by
  fun_induction takeByChance chance most s ps with
  | case1 => exact .slnil
  | case2 => exact List.nil_sublist _
  | case3 s p ps fewer s' hdraw ih => exact ih.cons_cons p
  | case4 s p ps fewer taken s' hdraw htaken ih => exact ih.cons p

/-- Chance takes no more cells than asked for. -/
theorem length_takeByChance_le (chance : Float) (most : Nat) (s : σ) (ps : List Position) :
    (takeByChance chance most s ps).length ≤ most := by
  fun_induction takeByChance chance most s ps with
  | case1 => exact Nat.zero_le _
  | case2 => exact Nat.zero_le _
  | case3 s p ps fewer s' hdraw ih => exact Nat.succ_le_succ ih
  | case4 s p ps fewer taken s' hdraw htaken ih => exact ih

/-- The cells of the enemies are those taken by chance. -/
theorem map_position_enemies (g : Grid) (cap : Nat) (s : σ) :
    (enemies g cap s).map Enemy.position =
      takeByChance (enemyChance cap) cap s (enemyCells g) := by
  rw [enemies, List.map_map]
  exact List.map_id _

theorem length_enemies_le (g : Grid) (cap : Nat) (s : σ) : (enemies g cap s).length ≤ cap := by
  rw [enemies, List.length_map]
  exact length_takeByChance_le _ _ _ _

/-- Enemies stand on plain cells off the border. -/
theorem of_mem_enemies {g : Grid} {cap : Nat} {s : σ} {p : Position}
    (h : p ∈ (enemies g cap s).map Enemy.position) :
    g.get? p = some .path ∧ g.Interior p := by
  rw [map_position_enemies] at h
  have hmem := (takeByChance_sublist _ _ _ _).subset h
  simpa [enemyCells] using hmem

/-- Enemies stand row by row. -/
theorem pairwise_enemies (g : Grid) (cap : Nat) (s : σ) :
    ((enemies g cap s).map Enemy.position).Pairwise Position.Before := by
  rw [map_position_enemies]
  exact ((g.pairwise_positionsOf .path).filter _).sublist (takeByChance_sublist _ _ _ _)

/-- Taking a place out of a pool, with the last one put there, leaves the rest. -/
theorem perm_cons_pop {pool : Array Position} {i : Nat} {p : Position} (h : pool[i]? = some p) :
    (p :: (pool.swapIfInBounds i (pool.size - 1)).pop.toList).Perm pool.toList := by
  obtain ⟨hi, hp⟩ := Array.getElem?_eq_some_iff.mp h
  have hlast : pool.size - 1 < pool.size := by omega
  have hswap : pool.swapIfInBounds i (pool.size - 1) = pool.swap i (pool.size - 1) hi hlast := by
    rw [Array.swapIfInBounds, dif_pos hi, dif_pos hlast]
  have hne : (pool.swap i (pool.size - 1) hi hlast).toList ≠ [] := by
    rw [ne_eq, ← List.length_eq_zero_iff, Array.length_toList, Array.size_swap]
    omega
  have hgetLast : (pool.swap i (pool.size - 1) hi hlast).toList.getLast hne = p := by
    rw [List.getLast_eq_getElem, Array.getElem_toList, ← hp]
    simp
  have hparts := List.dropLast_concat_getLast hne
  rw [hgetLast] at hparts
  have hperm := Array.perm_iff_toList_perm.mp (Array.swap_perm hi hlast)
  rw [← hparts] at hperm
  rw [hswap, Array.toList_pop]
  exact (List.perm_append_singleton p _).symm.trans hperm

/-- What is drawn from a pool is a part of it, in some order. -/
theorem exists_perm_drawCells (most : Nat) (pool : Array Position) (s : σ) :
    ∃ left, (drawCells most pool s ++ left).Perm pool.toList := by
  induction most generalizing pool s with
  | zero => exact ⟨pool.toList, .rfl⟩
  | succ fewer ih =>
    unfold drawCells
    split
    · exact ⟨pool.toList, .rfl⟩
    · simp only
      split
      · exact ⟨pool.toList, .rfl⟩
      · rename_i p hp
        obtain ⟨left, hleft⟩ := ih (pool.swapIfInBounds (WordSource.below pool.size s).1
          (pool.size - 1)).pop (WordSource.below pool.size s).2
        exact ⟨left, (hleft.cons p).trans (perm_cons_pop hp)⟩

/-- Only cells of the pool are drawn. -/
theorem mem_of_mem_drawCells {most : Nat} {pool : Array Position} {s : σ} {p : Position}
    (h : p ∈ drawCells most pool s) : p ∈ pool.toList := by
  obtain ⟨left, hperm⟩ := exists_perm_drawCells most pool s
  exact hperm.mem_iff.mp (List.mem_append_left left h)

/-- No cell of a pool is drawn twice. -/
theorem nodup_drawCells {pool : Array Position} (h : pool.toList.Nodup) (most : Nat) (s : σ) :
    (drawCells most pool s).Nodup := by
  obtain ⟨left, hperm⟩ := exists_perm_drawCells most pool s
  exact (List.nodup_append.mp (hperm.nodup_iff.mpr h)).1

/-- A strawberry lies on a cell made for one, or on a plain cell that is not to be avoided. -/
theorem of_mem_collectibles {g : Grid} {concepts : List Concept} {avoid : OrderedSet Position}
    {s : σ} {p : Position} (h : p ∈ collectibles g concepts avoid s) :
    g.get? p = some .reward ∨ (g.get? p = some .path ∧ p ∉ avoid) := by
  rcases List.mem_append.mp h with hplaced | hdrawn
  · exact .inl (Grid.mem_positionsOf.mp (List.mem_of_mem_take hplaced))
  · have hpool := mem_of_mem_drawCells hdrawn
    exact .inr (by simpa using hpool)

/-- No cell has two strawberries. -/
theorem nodup_collectibles (g : Grid) (concepts : List Concept) (avoid : OrderedSet Position)
    (s : σ) : (collectibles g concepts avoid s).Nodup := by
  rw [collectibles, List.nodup_append]
  have hpool : ((g.positionsOf .path).filter (· ∉ avoid)).toArray.toList.Nodup :=
    (g.nodup_positionsOf .path).filter _
  refine ⟨(g.nodup_positionsOf .reward).sublist (List.take_sublist _ _),
    nodup_drawCells hpool _ _, ?_⟩
  intro p hplaced q hdrawn heq
  subst heq
  have hreward := Grid.mem_positionsOf.mp (List.mem_of_mem_take hplaced)
  have hpath := mem_of_mem_drawCells hdrawn
  simp [hreward] at hpath

end Spawn

end Labyrinth
