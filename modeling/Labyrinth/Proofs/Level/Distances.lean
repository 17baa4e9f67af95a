import Mathlib.Combinatorics.SimpleGraph.Metric
import Labyrinth.Proofs.Level.Perfect

/-!
# Waves and distances

The waves of a flood are the cells at distance 0, 1, 2 and so on from its source, where a move leads
from an open cell to an open cell next to it (`Flood.after_iff`). The flood ends with the last wave
that has any cells, so its answer is one of the cells that are farthest away.
-/

namespace Labyrinth

namespace Grid

variable {g : Grid} {p q r : Position}

/-- A cell that takes just so many moves to reach from another. -/
def Away (g : Grid) (p : Position) (n : Nat) (q : Position) : Prop :=
  g.passages.Reachable p q ∧ g.passages.dist p q = n

theorem away_self (g : Grid) (p : Position) : g.Away p 0 p := ⟨.refl p, SimpleGraph.dist_self⟩

/-- Only the cell itself takes no moves. -/
theorem away_zero_iff : g.Away p 0 q ↔ q = p := by
  constructor
  · rintro ⟨hreach, hdist⟩
    exact (hreach.dist_eq_zero_iff.mp hdist).symm
  · rintro rfl
    exact g.away_self q

/-- What is reached from an open cell is open. -/
theorem isWalkable_of_reachable (hp : g.isWalkable p = true) (h : g.passages.Reachable p q) :
    g.isWalkable q = true := by
  obtain ⟨w⟩ := h
  exact @free_of_mem_support (g.isWalkable · = true) _ _ _ w hp w.end_mem_support

/-- One more move takes at most one more. -/
theorem Away.exists_le_succ {n : Nat} (h : g.Away p n q) (hadj : g.passages.Adj q r) :
    ∃ k ≤ n + 1, g.Away p k r := by
  obtain ⟨w, hw⟩ := h.1.exists_walk_length_eq_dist
  have hlength : (w.concat hadj).length = n + 1 := by
    rw [SimpleGraph.Walk.length_concat, hw, h.2]
  exact ⟨_, hlength ▸ SimpleGraph.dist_le (w.concat hadj), ⟨w.concat hadj⟩, rfl⟩

/-- A cell that takes some moves is next to one that takes one fewer. -/
theorem Away.exists_adj {n : Nat} (h : g.Away p (n + 1) q) :
    ∃ r, g.Away p n r ∧ g.passages.Adj r q := by
  obtain ⟨w, hw⟩ := h.1.exists_walk_length_eq_dist
  have hnil : ¬ w.Nil := by
    intro hnil
    rw [SimpleGraph.Walk.length_eq_zero_iff.mpr hnil, h.2] at hw
    cases hw
  have hadj := SimpleGraph.Walk.adj_penultimate hnil
  have hshort := SimpleGraph.dist_le w.dropLast
  rw [SimpleGraph.Walk.length_dropLast, hw, h.2] at hshort
  obtain ⟨k, hk, haway⟩ :=
    Away.exists_le_succ (g := g) ⟨⟨w.dropLast⟩, rfl⟩ hadj
  have hsame : k = n + 1 := haway.2.symm.trans h.2
  exact ⟨w.penultimate, ⟨⟨w.dropLast⟩, by omega⟩, hadj⟩

/-- No cell is two distances away. -/
theorem Away.unique {n k : Nat} (h : g.Away p n q) (h' : g.Away p k q) : n = k :=
  h.2.symm.trans h'.2

/-- A shortest way visits no cell twice, so it takes fewer moves than the grid has cells. -/
theorem Away.lt_cellCount {n : Nat} (hp : g.isWalkable p = true) (h : g.Away p n q) :
    n < g.cellCount := by
  obtain ⟨w, hpath, hlength⟩ := h.1.exists_path_of_dist
  have hin : ∀ r ∈ w.support, g.InBounds r := fun r hr =>
    inBounds_of_isWalkable (@free_of_mem_support (g.isWalkable · = true) _ _ _ w hp hr)
  have hnodup : (w.support.map g.index).Nodup :=
    List.Nodup.map_on (fun a ha b hb => (index_inj (hin a ha) (hin b hb)).mp) hpath.support_nodup
  have hplaces : w.support.map g.index ⊆ List.range g.cellCount := by
    intro i hi
    obtain ⟨r, hr, rfl⟩ := List.mem_map.mp hi
    exact List.mem_range.mpr (index_lt (hin r hr))
  have hle := (List.subperm_of_subset hnodup hplaces).length_le
  rw [List.length_map, SimpleGraph.Walk.length_support, hlength, h.2, List.length_range] at hle
  omega

end Grid

namespace Flood

variable {g : Grid} {p q : Position} {reached ps : List Position}

/-- What is left of a grid after some waves from a cell, and the last of these waves. -/
def after (g : Grid) (p : Position) : Nat → Grid × List Position
  | 0 => (g.set p .wall, [p])
  | n + 1 => nextWave (after g p n).1 (after g p n).2

/-- No wave has a cell twice. -/
theorem nodup_after (g : Grid) (p : Position) (n : Nat) : (after g p n).2.Nodup := by
  cases n with
  | zero => exact List.nodup_singleton p
  | succ n => exact nodup_wave _ _

/-- Waves leave the sides of the grid. -/
theorem sides_after (g : Grid) (p : Position) (n : Nat) :
    (after g p n).1.width = g.width ∧ (after g p n).1.height = g.height := by
  induction n with
  | zero => exact ⟨Grid.width_set, Grid.height_set⟩
  | succ n ih =>
    obtain ⟨hwidth, hheight⟩ := sides_wave (after g p n).1 []
      ((after g p n).2.flatMap (after g p n).1.neighbours)
    exact ⟨hwidth.trans ih.1, hheight.trans ih.2⟩

/-- The cells next to those of a wave are the same on what is left of the grid. -/
theorem after_succ (g : Grid) (p : Position) (n : Nat) :
    after g p (n + 1) = wave (after g p n).1 [] ((after g p n).2.flatMap g.neighbours) := by
  obtain ⟨hwidth, hheight⟩ := sides_after g p n
  have hsame : (after g p n).1.neighbours = g.neighbours := by
    funext q
    refine List.filter_congr fun r _ => decide_eq_decide.mpr ?_
    simp only [Grid.InBounds, hwidth, hheight]
  rw [after, nextWave, hsame]

/-- The waves are the cells at each distance from the first, and what is left of the grid are the
cells farther away than that. -/
theorem after_iff (hp : g.isWalkable p = true) (n : Nat) :
    (∀ q, q ∈ (after g p n).2 ↔ g.Away p n q) ∧
      ∀ q, (after g p n).1.isWalkable q = true ↔
        g.isWalkable q = true ∧ ∀ k ≤ n, ¬ g.Away p k q := by
  induction n with
  | zero =>
    refine ⟨fun q => ?_, fun q => ?_⟩
    · rw [after, List.mem_singleton, Grid.away_zero_iff]
    · rw [after, Grid.isWalkable_set_wall]
      simp only [Nat.le_zero, forall_eq, Grid.away_zero_iff]
  | succ n ih =>
    obtain ⟨hmem, hopen⟩ := ih
    have hnext (q : Position) : q ∈ (after g p (n + 1)).2 ↔ g.Away p (n + 1) q := by
      rw [after, mem_nextWave, hopen]
      constructor
      · rintro ⟨⟨hq, hfar⟩, x, hx, d, rfl⟩
        have hx := (hmem x).mp hx
        have hadj : g.passages.Adj x (x.step d) :=
          ⟨Grid.isWalkable_of_reachable hp hx.1, hq, Position.beside_step x d⟩
        obtain ⟨k, hk, haway⟩ := hx.exists_le_succ hadj
        have hlast : ¬ k ≤ n := fun hle => hfar k hle haway
        obtain rfl : k = n + 1 := by omega
        exact haway
      · intro haway
        obtain ⟨x, hx, hadj⟩ := haway.exists_adj
        refine ⟨⟨hadj.2.1, fun k hk hnear => ?_⟩, x, (hmem x).mpr hx, hadj.2.2⟩
        have := hnear.2.symm.trans haway.2
        omega
    refine ⟨hnext, fun q => ?_⟩
    have hleft : (after g p (n + 1)).1.isWalkable q = true ↔
        (after g p n).1.isWalkable q = true ∧ q ∉ (after g p (n + 1)).2 := by
      rw [after, nextWave, isWalkable_wave, mem_wave]
      simp only [List.not_mem_nil, false_or, not_and]
      exact and_congr_right fun hq => ⟨fun hnot hin => absurd hin hnot, fun h hin => h hin hq⟩
    rw [hleft, hopen, hnext, and_assoc]
    refine and_congr_right fun _ => ?_
    constructor
    · rintro ⟨hnear, hlast⟩ k hk
      rcases Nat.lt_or_ge n k with hlt | hle
      · obtain rfl : k = n + 1 := by omega
        exact hlast
      · exact hnear k hle
    · intro h
      exact ⟨fun k hk => h k (by omega), h (n + 1) (Nat.le_refl _)⟩

/-- The cells of so many waves, one wave after another. -/
def waves (g : Grid) (p : Position) : Nat → List Position
  | 0 => []
  | n + 1 => waves g p n ++ (after g p n).2

/-- The first waves have the cells nearer than that. -/
theorem mem_waves (hp : g.isWalkable p = true) {n : Nat} :
    q ∈ waves g p n ↔ ∃ k < n, g.Away p k q := by
  induction n with
  | zero => simp [waves]
  | succ n ih =>
    rw [waves, List.mem_append, ih, (after_iff hp n).1]
    constructor
    · rintro (⟨k, hk, haway⟩ | haway)
      · exact ⟨k, by omega, haway⟩
      · exact ⟨n, by omega, haway⟩
    · rintro ⟨k, hk, haway⟩
      rcases Nat.lt_succ_iff_lt_or_eq.mp hk with hlt | rfl
      · exact .inl ⟨k, hlt, haway⟩
      · exact .inr haway

/-- No cell is in two waves. -/
theorem nodup_waves (hp : g.isWalkable p = true) (n : Nat) : (waves g p n).Nodup := by
  induction n with
  | zero => exact List.nodup_nil
  | succ n ih =>
    refine List.nodup_append.mpr ⟨ih, nodup_after g p n, ?_⟩
    rintro q hq r hr rfl
    obtain ⟨k, hk, haway⟩ := (mem_waves hp).mp hq
    have := haway.unique (((after_iff hp n).1 q).mp hr)
    omega

/-- One wave after another, nearer cells come first. -/
theorem pairwise_waves (hp : g.isWalkable p = true) (n : Nat) :
    (waves g p n).Pairwise fun q r => g.passages.dist p q ≤ g.passages.dist p r := by
  have hdist (k : Nat) (r : Position) (hr : r ∈ (after g p k).2) : g.passages.dist p r = k :=
    (((after_iff hp k).1 r).mp hr).2
  induction n with
  | zero => exact List.Pairwise.nil
  | succ n ih =>
    refine List.pairwise_append.mpr ⟨ih, ?_, ?_⟩
    · refine List.pairwise_of_forall_mem_list fun q hq r hr => ?_
      rw [hdist n q hq, hdist n r hr]
    · intro q hq r hr
      obtain ⟨k, hk, haway⟩ := (mem_waves hp).mp hq
      rw [haway.2, hdist n r hr]
      omega

/-- A flood comes to a wave with no cells, and its answer is the first cell of the one before. -/
theorem exists_lastWave (g : Grid) (p : Position) :
    ∃ n next, (after g p n).2 = g.farthest p :: next ∧ (after g p (n + 1)).2 = [] := by
  have hall (h : Grid) (first : Position) (last : List Position) (k : Nat)
      (hk : after g p k = (h, last)) (hlast : ∃ rest, last = first :: rest) :
      ∃ n next, (after g p n).2 = lastWave h first last :: next ∧
        (after g p (n + 1)).2 = [] := by
    fun_induction lastWave h first last generalizing k with
    | case1 h first last hnone =>
      obtain ⟨rest, rfl⟩ := hlast
      refine ⟨k, rest, by rw [hk], ?_⟩
      rw [after, hk, hnone]
    | case2 h first last q next hnext ih =>
      refine ih (k + 1) ?_ ⟨next, rfl⟩
      rw [after, hk, ← hnext]
  exact hall _ _ _ 0 rfl ⟨[], rfl⟩

/-- A wave with a cell has a wave with a cell before it. -/
theorem after_ne_nil (hp : g.isWalkable p = true) {n : Nat} (h : (after g p (n + 1)).2 ≠ []) :
    (after g p n).2 ≠ [] := by
  obtain ⟨q, hq⟩ := List.exists_mem_of_ne_nil _ h
  obtain ⟨r, hr, -⟩ := (((after_iff hp (n + 1)).1 q).mp hq).exists_adj
  exact List.ne_nil_of_mem (((after_iff hp n).1 r).mpr hr)

/-- Nothing is farther away than the last wave. -/
theorem le_of_away (hp : g.isWalkable p = true) {n k : Nat} (h : (after g p (n + 1)).2 = [])
    (hq : g.Away p k q) : k ≤ n := by
  have hempty (i : Nat) : (after g p (n + 1 + i)).2 = [] := by
    induction i with
    | zero => exact h
    | succ i ih =>
      by_contra hne
      exact after_ne_nil hp hne ih
  rcases Nat.lt_or_ge n k with hlt | hle
  · obtain ⟨i, rfl⟩ := Nat.exists_eq_add_of_le hlt
    have hmem := ((after_iff hp _).1 q).mpr hq
    rw [hempty i] at hmem
    cases hmem
  · exact hle

end Flood

end Labyrinth
