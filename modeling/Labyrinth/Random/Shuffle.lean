import Labyrinth.Random.Words

/-!
# Shuffling

A list is shuffled by swapping each of its places with one that is not behind it. The
place for position `m - 1` is a number below `m`. Several such numbers are taken from one
drawn number, which is below the product of their bounds: it is reduced by one bound after
the other. `perm_shuffle` says that shuffling loses and adds nothing, whatever is drawn.
-/

namespace Labyrinth

namespace Shuffle

open WordSource

variable {σ : Type} [WordSource σ]

/-- A drawn number and how many bounds it still serves. -/
structure Chunk where
  /-- What is left of the drawn number. -/
  value : Nat
  /-- The number of bounds that it serves. -/
  uses : Nat

/-- The product of as many consecutive bounds as fit in a word, given the product so far and
the next bound; with it the first bound that does not fit. -/
def extend (product bound : Nat) : Nat × Nat :=
  if 0 < product ∧ 1 < bound ∧ product * bound < wordSize then extend (product * bound) (bound + 1)
  else (product, bound)
termination_by wordSize - product
decreasing_by
  rename_i h
  obtain ⟨hp, hb, hlt⟩ := h
  have : product * 2 ≤ product * bound := Nat.mul_le_mul_left _ hb
  omega

/-- A chunk that serves at least the bound `m`, drawn if the one at hand is used up. -/
def refill (m : Nat) (c : Chunk) (s : σ) : Chunk × σ :=
  if c.uses = 0 then
    let (product, past) := extend m (m + 1)
    let (value, s) := below product s
    (⟨value, past - m⟩, s)
  else (c, s)

/-- The next number, below `m`. -/
def pick (m : Nat) (c : Chunk) (s : σ) : Nat × Chunk × σ :=
  let (c, s) := refill m c s
  if c.uses = 1 then (c.value, ⟨c.value, 0⟩, s)
  else (c.value % m, ⟨c.value / m, c.uses - 1⟩, s)

/-- Shuffles the places from `i` on. -/
def shuffleFrom {α : Type} (i : Nat) (c : Chunk) (xs : Array α) (s : σ) : Array α × σ :=
  if i < xs.size then
    let (j, c, s) := pick (i + 1) c s
    shuffleFrom (i + 1) c (xs.swapIfInBounds i j) s
  else (xs, s)
termination_by xs.size - i
decreasing_by
  simp only [Array.size_swapIfInBounds]
  omega

theorem perm_swapIfInBounds {α : Type} (xs : Array α) (i j : Nat) :
    (xs.swapIfInBounds i j).Perm xs := by
  rw [Array.swapIfInBounds]
  split
  · split
    · exact Array.swap_perm _ _
    · exact .rfl
  · exact .rfl

theorem perm_shuffleFrom {α : Type} (i : Nat) (c : Chunk) (xs : Array α) (s : σ) :
    (shuffleFrom i c xs s).1.Perm xs := by
  fun_induction shuffleFrom i c xs s with
  | case1 i c xs s h j c' s' hp ih => exact ih.trans (perm_swapIfInBounds _ _ _)
  | case2 => exact .rfl

end Shuffle

/-- A list in a random order. -/
def shuffle {σ α : Type} [WordSource σ] (xs : List α) (s : σ) : List α × σ :=
  if xs.length ≤ 1 then (xs, s)
  else
    let (ys, s) := Shuffle.shuffleFrom 0 ⟨0, 1⟩ xs.toArray s
    (ys.toList, s)

/-- Shuffling loses and adds nothing. -/
theorem perm_shuffle {σ α : Type} [WordSource σ] (xs : List α) (s : σ) :
    (shuffle xs s).1.Perm xs := by
  unfold shuffle
  split
  · exact .rfl
  · simpa [Array.perm_iff_toList_perm] using Shuffle.perm_shuffleFrom 0 ⟨0, 1⟩ xs.toArray s

end Labyrinth
