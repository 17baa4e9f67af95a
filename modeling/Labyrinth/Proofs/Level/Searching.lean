import Labyrinth.Level.Search
import Labyrinth.Proofs.Level.Distances

/-!
# A search goes wave by wave

A flood keeps no queue and no distances, only what is left of the grid and the last wave. A search
that looks at all cells of a wave, one after the other, has the next wave in its queue, in the same
order (`AtWave.exists_next`). So the waves one after another are the order in which it looks at
cells, what it writes down for a cell is the distance of that cell, and the cell that a flood ends
in is the one that the search keeps as the best.
-/

namespace Labyrinth

namespace Search

variable {g left : Grid} {s s' s'' : Search g} {p q : Position} {n : Nat}

@[simp] theorem queue_put : (s.put n p).queue = s.queue ++ [p] := rfl

@[simp] theorem best_put : (s.put n p).best = s.best := rfl

/-- A cell that is put into the queue gets its moves, and all others keep theirs. -/
theorem moves?_put (hp : g.InBounds p) (hq : g.InBounds q) :
    (s.put n p).moves? q = if q = p then some n else s.moves? q := by
  have hi : g.index p < s.moves.size := by
    rw [s.size_moves]
    exact Grid.index_lt hp
  simp only [moves?, put, Array.getD_eq_getD_getElem?, Array.getElem?_setIfInBounds,
    Grid.index_inj hp hq, eq_comm (a := p)]
  by_cases heq : q = p
  · simp [heq, hi]
  · simp [heq]

/-- Only the cell that a search starts from has been reached at first. -/
theorem moves?_start (hp : g.InBounds p) (hq : g.InBounds q) :
    (start g p).moves? q = if q = p then some 0 else none := by
  simp only [moves?, start, Array.getD_eq_getD_getElem?, Array.getElem?_setIfInBounds,
    Array.size_replicate, Grid.index_inj hp hq, eq_comm (a := p)]
  by_cases heq : q = p
  · simp [heq, Grid.index_lt hp]
  · rw [if_neg heq, if_neg heq, Array.getElem?_replicate]
    split <;> rfl

/-- What is left of a grid are its open cells that a search has not reached. -/
def LeavesOpen (s : Search g) (left : Grid) : Prop :=
  ∀ q, left.isWalkable q = true ↔ g.isWalkable q = true ∧ s.moves? q = none

/-- A search has reached some more cells, all in the same number of moves. -/
structure Adds (n : Nat) (new : List Position) (s s' : Search g) : Prop where
  /-- They wait behind the others. -/
  queue_eq : s'.queue = s.queue ++ new
  /-- Nothing else has changed of the moves. -/
  moves?_eq : ∀ q, g.InBounds q → s'.moves? q = if q ∈ new then some n else s.moves? q
  /-- No cell was looked at. -/
  best_eq : s'.best = s.best

theorem Adds.refl (n : Nat) (s : Search g) : Adds n [] s s := ⟨by simp, by simp, rfl⟩

theorem Adds.trans {new more : List Position} (h : Adds n new s s') (h' : Adds n more s' s'') :
    Adds n (new ++ more) s s'' := by
  refine ⟨?_, ?_, h'.best_eq.trans h.best_eq⟩
  · rw [h'.queue_eq, h.queue_eq, List.append_assoc]
  · intro q hq
    rw [h'.moves?_eq q hq, h.moves?_eq q hq]
    by_cases hmore : q ∈ more <;> by_cases hnew : q ∈ new <;> simp [hmore, hnew]

/-- A cell is reached when it is left over, as in a wave. -/
theorem reach_wave (hleft : s.LeavesOpen left) (n : Nat) (p : Position) :
    Adds n (Flood.wave left [] [p]).2 s (s.reach n p) ∧
      (s.reach n p).LeavesOpen (Flood.wave left [] [p]).1 := by
  by_cases hopen : left.isWalkable p = true
  · obtain ⟨hwalkable, hnew⟩ := (hleft p).mp hopen
    have hp := Grid.inBounds_of_isWalkable hwalkable
    simp only [reach, hwalkable, hnew, and_self, if_true, Flood.wave, hopen, List.reverse_cons,
      List.reverse_nil, List.nil_append]
    refine ⟨⟨queue_put, fun q hq => ?_, best_put⟩, fun q => ?_⟩
    · simp only [moves?_put hp hq, List.mem_singleton]
    · rw [Grid.isWalkable_set_wall, hleft]
      by_cases hq : g.isWalkable q = true
      · rw [moves?_put hp (Grid.inBounds_of_isWalkable hq)]
        by_cases heq : q = p <;> simp [heq]
      · simp [hq]
  · have hnot : ¬ (g.isWalkable p = true ∧ s.moves? p = none) := mt (hleft p).mpr hopen
    simp only [reach, if_neg hnot, Flood.wave, if_neg hopen, List.reverse_nil]
    exact ⟨.refl n s, hleft⟩

/-- Several cells are reached as in a wave. -/
theorem foldl_reach_wave (hleft : s.LeavesOpen left) (n : Nat) (ps : List Position) :
    Adds n (Flood.wave left [] ps).2 s (ps.foldl (reach n) s) ∧
      (ps.foldl (reach n) s).LeavesOpen (Flood.wave left [] ps).1 := by
  induction ps generalizing s left with
  | nil => exact ⟨.refl n s, hleft⟩
  | cons p ps ih =>
    obtain ⟨hfirst, hleft⟩ := reach_wave hleft n p
    obtain ⟨hrest, hleft⟩ := ih hleft
    rw [← List.singleton_append, Flood.wave_append]
    exact ⟨hfirst.trans hrest, hleft⟩

/-- The better of the best cell and another. -/
def better (best : Position × Nat) (p : Position) (n : Nat) : Position × Nat :=
  if best.2 < n then (p, n) else best

/-- A look at a cell reaches its neighbours as in a wave. -/
theorem look_wave (others : List Position) (hleft : s.LeavesOpen left) (hp : s.moves? p = some n) :
    Adds (n + 1) (Flood.wave left [] (g.neighbours p)).2
        { s with queue := others, best := better s.best p n } (s.look p others) ∧
      (s.look p others).LeavesOpen (Flood.wave left [] (g.neighbours p)).1 := by
  have hlook : s.look p others = (g.neighbours p).foldl (reach (n + 1))
      { s with queue := others, best := better s.best p n } := by
    simp only [look, hp, Option.getD_some, better]
  rw [hlook]
  exact foldl_reach_wave (s := { s with queue := others, best := better s.best p n }) hleft _ _

/-- A search goes on by looking at some cells, one after the other. -/
inductive Looks : Search g → List Position → Search g → Prop
  | none (s : Search g) : Looks s [] s
  | next {s s' : Search g} {p : Position} {others ps : List Position} (h : s.queue = p :: others)
      (rest : Looks (s.look p others) ps s') : Looks s (p :: ps) s'

namespace Looks

variable {ps qs : List Position}

theorem append (h : Looks s ps s') (h' : Looks s' qs s'') : Looks s (ps ++ qs) s'' := by
  induction h with
  | none => exact h'
  | next hqueue _ ih => exact .next hqueue (ih h')

/-- It ends as what is left of it ends. -/
theorem run_eq (h : Looks s ps s') : s.run = s'.run := by
  induction h with
  | none => rfl
  | next hqueue _ ih => rw [run_of_cons hqueue, ih]

/-- The cells that it has looked at come first in the order. -/
theorem order_eq (h : Looks s ps s') : s.order = ps ++ s'.order := by
  induction h with
  | none => rfl
  | next hqueue _ ih => rw [order_of_cons hqueue, ih, List.cons_append]

end Looks

/-- Looking at the cells of one wave that wait first puts those of the next wave behind the others,
in the order in which a wave over all neighbours reaches them. -/
theorem exists_looks_wave {ps waiting : List Position} (hleft : s.LeavesOpen left)
    (hqueue : s.queue = ps ++ waiting) (hps : ∀ p ∈ ps, g.InBounds p ∧ s.moves? p = some n) :
    ∃ s', Looks s ps s' ∧
      Adds (n + 1) (Flood.wave left [] (ps.flatMap g.neighbours)).2
        { s with queue := waiting, best := ps.foldl (better · · n) s.best } s' := by
  induction ps generalizing s left waiting with
  | nil =>
    refine ⟨s, .none s, ?_⟩
    have hsame : { s with queue := waiting, best := s.best } = s := by
      rw [show waiting = s.queue from hqueue.symm]
    simp only [List.flatMap_nil, Flood.wave, List.reverse_nil, List.foldl_nil, hsame]
    exact .refl _ s
  | cons p ps ih =>
    obtain ⟨hp, hps⟩ := List.forall_mem_cons.mp hps
    obtain ⟨hadds, hleft'⟩ := look_wave (ps ++ waiting) hleft hp.2
    -- the cells of this wave have been reached already
    have hkept : ∀ q ∈ ps, g.InBounds q ∧ (s.look p (ps ++ waiting)).moves? q = some n := by
      intro q hq
      obtain ⟨hin, hmoves⟩ := hps q hq
      refine ⟨hin, ?_⟩
      rw [hadds.moves?_eq q hin, if_neg]
      · exact hmoves
      · intro hmem
        have hopen := (Flood.mem_wave.mp hmem).resolve_left List.not_mem_nil
        have hnone := ((hleft q).mp hopen.2).2
        rw [hmoves] at hnone
        cases hnone
    obtain ⟨s', hlooks, hrest⟩ := ih hleft' (by rw [hadds.queue_eq, List.append_assoc]) hkept
    refine ⟨s', .next hqueue hlooks, ?_⟩
    rw [List.flatMap_cons, Flood.wave_append]
    rw [hadds.best_eq] at hrest
    refine Adds.trans ?_ hrest
    exact ⟨rfl, hadds.moves?_eq, rfl⟩

/-- A cell of a wave is no better than a best cell that took as many moves. -/
theorem foldl_better_of_le {best : Position × Nat} (h : n ≤ best.2) (ps : List Position) :
    ps.foldl (better · · n) best = best := by
  induction ps with
  | nil => rfl
  | cons p ps ih => rw [List.foldl_cons, better, if_neg (by omega), ih]

/-- The first cell of a wave is better than one of an earlier wave, and stays the best. -/
theorem foldl_better_cons {best : Position × Nat} (h : best.2 < n) (p : Position)
    (ps : List Position) : (p :: ps).foldl (better · · n) best = (p, n) := by
  rw [List.foldl_cons, better, if_pos h, foldl_better_of_le (Nat.le_refl n)]

/-- A search has looked at all waves before this one, and at no cell of it. -/
structure AtWave (p : Position) (n : Nat) (s : Search g) : Prop where
  /-- The cells of the wave wait. -/
  queue_eq : s.queue = (Flood.after g p n).2
  /-- The distances up to that of the wave are written down. -/
  moves?_iff : ∀ q, g.InBounds q → ∀ k, s.moves? q = some k ↔ k ≤ n ∧ g.Away p k q

theorem atWave_start (hp : g.isWalkable p = true) : (start g p).AtWave p 0 := by
  refine ⟨rfl, fun q hq k => ?_⟩
  rw [moves?_start (Grid.inBounds_of_isWalkable hp) hq]
  constructor
  · intro hk
    split at hk
    · rename_i heq
      cases hk
      exact ⟨Nat.le_refl 0, Grid.away_zero_iff.mpr heq⟩
    · cases hk
  · rintro ⟨hk, haway⟩
    obtain rfl : k = 0 := by omega
    rw [if_pos (Grid.away_zero_iff.mp haway)]

theorem AtWave.leavesOpen (hp : g.isWalkable p = true) (hs : s.AtWave p n) :
    s.LeavesOpen (Flood.after g p n).1 := by
  intro q
  rw [(Flood.after_iff hp n).2 q]
  refine and_congr_right fun hq => ?_
  rw [Option.eq_none_iff_forall_ne_some]
  simp only [ne_eq, hs.moves?_iff q (Grid.inBounds_of_isWalkable hq), not_and]

/-- From one wave a search comes to the next. -/
theorem AtWave.exists_next (hp : g.isWalkable p = true) (hs : s.AtWave p n) :
    ∃ s', Looks s (Flood.after g p n).2 s' ∧ s'.AtWave p (n + 1) ∧
      s'.best = (Flood.after g p n).2.foldl (better · · n) s.best := by
  have hwave : ∀ q ∈ (Flood.after g p n).2, g.InBounds q ∧ s.moves? q = some n := by
    intro q hq
    have haway := ((Flood.after_iff hp n).1 q).mp hq
    have hin := Grid.inBounds_of_isWalkable (Grid.isWalkable_of_reachable hp haway.1)
    exact ⟨hin, (hs.moves?_iff q hin n).mpr ⟨Nat.le_refl n, haway⟩⟩
  have hqueue : s.queue = (Flood.after g p n).2 ++ [] := by rw [hs.queue_eq, List.append_nil]
  obtain ⟨s', hlooks, hadds⟩ := exists_looks_wave (hs.leavesOpen hp) hqueue hwave
  rw [← Flood.after_succ] at hadds
  refine ⟨s', hlooks, ⟨hadds.queue_eq, fun q hq k => ?_⟩, hadds.best_eq⟩
  have hold : s.moves? q = some k ↔ k ≤ n ∧ g.Away p k q := hs.moves?_iff q hq k
  have hnext : q ∈ (Flood.after g p (n + 1)).2 ↔ g.Away p (n + 1) q :=
    (Flood.after_iff hp (n + 1)).1 q
  rw [hadds.moves?_eq q hq]
  split
  · rename_i hin
    constructor
    · intro hk
      cases hk
      exact ⟨Nat.le_refl _, hnext.mp hin⟩
    · rintro ⟨-, haway⟩
      rw [(hnext.mp hin).unique haway]
  · rename_i hnot
    refine hold.trans (and_congr_left fun haway => ?_)
    have hne : k ≠ n + 1 := by
      rintro rfl
      exact hnot (hnext.mpr haway)
    omega

/-- A search looks at all waves in turn; after a wave its first cell is the best. -/
theorem exists_atWave (hp : g.isWalkable p = true) {first : Position} {next : List Position}
    (hwave : (Flood.after g p n).2 = first :: next) :
    ∃ s, Looks (start g p) (Flood.waves g p (n + 1)) s ∧ s.AtWave p (n + 1) ∧
      s.best = (first, n) := by
  induction n generalizing first next with
  | zero =>
    obtain ⟨s, hlooks, hs, hbest⟩ := (atWave_start hp).exists_next hp
    cases hwave
    exact ⟨s, hlooks, hs, hbest⟩
  | succ n ih =>
    obtain ⟨q, others, hq⟩ := List.exists_cons_of_ne_nil
      (Flood.after_ne_nil hp (n := n) (by rw [hwave]; exact List.cons_ne_nil _ _))
    obtain ⟨s, hlooks, hs, hbest⟩ := ih hq
    obtain ⟨s', hlooks', hs', hbest'⟩ := hs.exists_next hp
    refine ⟨s', hlooks.append hlooks', hs', ?_⟩
    rw [hbest', hbest, hwave, foldl_better_cons (Nat.lt_succ_self n)]

/-- A look at a cell only adds to the queue. -/
theorem exists_queue_look (s : Search g) (p : Position) (others : List Position) :
    ∃ new, (s.look p others).queue = others ++ new := by
  have hall (n : Nat) (ps : List Position) (s : Search g) :
      ∃ new, (ps.foldl (reach n) s).queue = s.queue ++ new := by
    induction ps generalizing s with
    | nil => exact ⟨[], by simp⟩
    | cons q ps ih =>
      obtain ⟨new, hnew⟩ := ih (s.reach n q)
      by_cases hreach : g.isWalkable q = true ∧ s.moves? q = none
      · refine ⟨q :: new, ?_⟩
        rw [List.foldl_cons, hnew, reach, if_pos hreach, queue_put, List.append_assoc,
          List.singleton_append]
      · refine ⟨new, ?_⟩
        rw [List.foldl_cons, hnew, reach, if_neg hreach]
  exact hall _ _ _

/-- The cells that wait are the next ones to be looked at, in the order in which they were put into
the queue. -/
theorem queue_prefix_order (s : Search g) : s.queue <+: s.order := by
  fun_induction order s with
  | case1 s hqueue =>
    exact hqueue ▸ List.nil_prefix
  | case2 s p others hqueue ih =>
    obtain ⟨new, hnew⟩ := s.exists_queue_look p others
    rw [hqueue, List.cons_prefix_cons]
    exact ⟨rfl, (List.prefix_append others new).trans (hnew ▸ ih)⟩

/-- What a search from a cell does. -/
structure Explores (g : Grid) (p : Position) : Prop where
  /-- It ends when no cell waits any more. -/
  queue_eq : (start g p).run.queue = []
  /-- It looks at no cell twice. -/
  nodup : (start g p).order.Nodup
  /-- It looks at the cells that can be reached. -/
  mem_order_iff : ∀ q, q ∈ (start g p).order ↔ g.passages.Reachable p q
  /-- It looks at nearer cells first. -/
  nearest_first : (start g p).order.Pairwise fun q r => g.passages.dist p q ≤ g.passages.dist p r
  /-- It looks at cells in the order in which it reaches them: at any time, those that it has looked
  at and those that wait are the beginning of the order. -/
  order_prefix : ∀ ps s, Looks (start g p) ps s → ps ++ s.queue <+: (start g p).order
  /-- It writes down the distances. -/
  moves?_iff : ∀ q n, g.InBounds q →
    ((start g p).run.moves? q = some n ↔ g.passages.Reachable p q ∧ g.passages.dist p q = n)
  /-- These are less than the number of cells. -/
  lt_cellCount : ∀ q n, g.InBounds q → (start g p).run.moves? q = some n → n < g.cellCount

/-- A cell that a search from another reaches first of those that take the most moves. -/
structure FirstFarthest (g : Grid) (p q : Position) : Prop where
  /-- It is open. -/
  isWalkable : g.isWalkable q = true
  /-- It is reached. -/
  reachable : g.passages.Reachable p q
  /-- No cell that is reached takes more moves. -/
  farthest : ∀ r, g.passages.Reachable p r → g.passages.dist p r ≤ g.passages.dist p q
  /-- All cells that were reached before it take fewer. -/
  first : ∃ before later, (start g p).order = before ++ q :: later ∧
    ∀ r ∈ before, g.passages.dist p r < g.passages.dist p q
  /-- It is the cell that the search starts from only if no other is reached. -/
  eq_iff : q = p ↔ ∀ r, g.passages.Reachable p r → r = p

/-- The farthest cell is the best one of a search that goes to the neighbours of a cell in the order
of the directions. The search ends, its moves are the distances, and of the cells that are farthest
away it keeps the one that it reached first. -/
theorem farthest_is_first_of_farthest (g : Grid) (p : Position) (hp : g.isWalkable p = true) :
    Explores g p ∧ g.farthest p = (start g p).run.best.1 ∧ FirstFarthest g p (g.farthest p) := by
  obtain ⟨n, next, hlast, hnone⟩ := Flood.exists_lastWave g p
  obtain ⟨s, hlooks, hs, hbest⟩ := exists_atWave hp hlast
  have hqueue : s.queue = [] := hs.queue_eq.trans hnone
  have hrun : (start g p).run = s := by rw [hlooks.run_eq, run_of_nil hqueue]
  have horder : (start g p).order = Flood.waves g p (n + 1) := by
    rw [hlooks.order_eq, order_of_nil hqueue, List.append_nil]
  have hle {k : Nat} {q : Position} (haway : g.Away p k q) : k ≤ n :=
    Flood.le_of_away hp hnone haway
  have hmoves (q : Position) (k : Nat) (hq : g.InBounds q) :
      (start g p).run.moves? q = some k ↔ g.Away p k q := by
    rw [hrun, hs.moves?_iff q hq]
    exact and_iff_right_of_imp fun haway => Nat.le_succ_of_le (hle haway)
  have hfar : g.Away p n (g.farthest p) :=
    ((Flood.after_iff hp n).1 _).mp (hlast ▸ List.mem_cons_self)
  have hexplores : Explores g p := by
    refine ⟨by rw [hrun, hqueue], ?_, ?_, ?_, ?_, hmoves, ?_⟩
    · exact horder ▸ Flood.nodup_waves hp (n + 1)
    · intro q
      rw [horder, Flood.mem_waves hp]
      constructor
      · rintro ⟨k, -, haway⟩
        exact haway.1
      · intro hq
        exact ⟨_, Nat.lt_succ_of_le (hle ⟨hq, rfl⟩), hq, rfl⟩
    · exact horder ▸ Flood.pairwise_waves hp (n + 1)
    · intro ps s' h
      rw [h.order_eq]
      exact (List.prefix_append_right_inj ps).mpr s'.queue_prefix_order
    · intro q k hq hk
      exact ((hmoves q k hq).mp hk).lt_cellCount hp
  refine ⟨hexplores, by rw [hrun, hbest], ?_, hfar.1, ?_, ?_, ?_⟩
  · exact Grid.isWalkable_of_reachable hp hfar.1
  · intro r hr
    rw [hfar.2]
    exact hle ⟨hr, rfl⟩
  · refine ⟨Flood.waves g p n, next, by rw [horder, Flood.waves, hlast], fun r hr => ?_⟩
    obtain ⟨k, hk, haway⟩ := (Flood.mem_waves hp).mp hr
    rw [haway.2, hfar.2]
    exact hk
  · constructor
    · intro heq r hr
      rw [heq] at hfar
      obtain rfl : n = 0 := hfar.unique (g.away_self p)
      have hnear : g.passages.dist p r = 0 := Nat.le_zero.mp (hle ⟨hr, rfl⟩)
      exact Grid.away_zero_iff.mp ⟨hr, hnear⟩
    · exact fun halone => halone _ hfar.1

/-- On three by two cells without walls two cells are two moves away from the one in the middle of
the first row. The one to the left is reached first. -/
theorem farthest_three_by_two :
    let g : Grid := ⟨3, 2, Array.replicate 6 .path, rfl, ⟨0, 0⟩, ⟨0, 0⟩⟩
    g.isWalkable ⟨1, 0⟩ = true ∧ g.farthest ⟨1, 0⟩ = ⟨0, 1⟩ ∧
      (start g ⟨1, 0⟩).order = [⟨1, 0⟩, ⟨1, 1⟩, ⟨0, 0⟩, ⟨2, 0⟩, ⟨0, 1⟩, ⟨2, 1⟩] ∧
      Explores g ⟨1, 0⟩ ∧ FirstFarthest g ⟨1, 0⟩ ⟨0, 1⟩ := by
  intro g
  have hfar : g.farthest ⟨1, 0⟩ = ⟨0, 1⟩ := by decide +kernel
  obtain ⟨hexplores, -, hfirst⟩ := farthest_is_first_of_farthest g ⟨1, 0⟩ (by decide)
  exact ⟨by decide, hfar, by decide +kernel, hexplores, hfar ▸ hfirst⟩

end Search

end Labyrinth
