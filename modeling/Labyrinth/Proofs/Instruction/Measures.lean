import Mathlib.Algebra.GroupWithZero.Nat
import Labyrinth.Instruction.Visits
import Labyrinth.Proofs.Instruction.Nesting
import Labyrinth.Proofs.Instruction.Pruning
import Labyrinth.Proofs.Language.Rebuilding

/-!
# Depth and size do not depend on the way through a program

A program is looked through in an order unlike that of its tree: what stands inside its blocks comes
last, and the last block first. The depth that is found is the height of the tree, as a bound on one
is a bound on the other at every stage of the search (`Descent.finish_le_iff`). The number that is
found is that of all instructions of the tree, `Program.nodes`, and from these the number of tokens
is read off as well.
-/

namespace Labyrinth

open Instruction (programSize)

mutual

/-- An instruction and all that stands inside it, in the order of the text. -/
def Instruction.nodes : Instruction → List Instruction
  | .block header body => .block header body :: Program.nodes body
  | .move d => [.move d]
  | .call => [.call]
  | .noop => [.noop]

/-- The instructions of a program at all levels, in the order of the text. -/
def Program.nodes : Program → List Instruction
  | [] => []
  | i :: rest => i.nodes ++ Program.nodes rest

end

/-! ## The deepest level -/

namespace Descent

variable {s : Descent} {n : Nat}

/-- No level is deeper than a bound: none that was found, and none in the programs put aside. -/
def Within (s : Descent) (n : Nat) : Prop :=
  s.deepest ≤ n ∧ ∀ q ∈ s.pending, q.1 ≠ [] → q.2 + q.1.nesting ≤ n + 1

/-- To meet an instruction takes it, and all that is inside it, into account. -/
theorem within_meet_iff (level : Nat) (i : Instruction) :
    (s.meet level i).Within n ↔ s.Within n ∧ level + i.nesting ≤ n + 1 := by
  cases i with
  | block header body =>
    have hblock :
        (max s.deepest level ≤ n ∧
            (body ≠ [] → level + 1 + Program.nesting body ≤ n + 1)) ↔
          s.deepest ≤ n ∧ level + (1 + Program.nesting body) ≤ n + 1 := by
      cases body with
      | nil =>
        simp only [ne_eq, not_true_eq_false, false_implies, and_true, Program.nesting]
        omega
      | cons j body =>
        simp only [ne_eq, reduceCtorEq, not_false_eq_true, true_implies]
        omega
    simp only [Within, meet, Instruction.body?, Instruction.nesting, List.forall_mem_cons]
    rw [← and_assoc, hblock, and_right_comm]
  | move d | call | noop =>
    simp only [Within, meet, Instruction.body?, Instruction.nesting]
    rw [Nat.max_le, Nat.add_le_add_iff_right, and_right_comm]

/-- To look through a program takes all of it into account. -/
theorem within_lookThrough_iff (p : Program) (level : Nat) :
    (s.lookThrough p level).Within n ↔
      s.Within n ∧ (p ≠ [] → level + p.nesting ≤ n + 1) := by
  induction p generalizing s with
  | nil => simp [lookThrough]
  | cons i rest ih =>
    have hcons : s.lookThrough (i :: rest) level = (s.meet level i).lookThrough rest level := rfl
    rw [hcons, ih, within_meet_iff, and_assoc]
    apply and_congr_right
    intro _
    have hpos : 0 < i.nesting := by cases i <;> rw [Instruction.nesting] <;> omega
    rw [Program.nesting]
    cases rest with
    | nil => simp [Program.nesting]
    | cons j rest =>
      simp only [ne_eq, reduceCtorEq, not_false_eq_true, true_implies]
      omega

/-- What is found in the end is within a bound exactly if everything is, at any stage. -/
theorem finish_le_iff (s : Descent) (n : Nat) : s.finish ≤ n ↔ s.Within n := by
  fun_induction finish s with
  | case1 s h => simp [Within, h]
  | case2 s p level others h ih =>
    rw [ih, within_lookThrough_iff, Within, Within, h, List.forall_mem_cons]
    exact ⟨fun hw => ⟨hw.1.1, hw.2, hw.1.2⟩, fun hw => ⟨⟨hw.1, hw.2.2⟩, hw.2.1⟩⟩

end Descent

namespace Program

/-- The deepest level is the height of the tree. -/
theorem deepest_eq_nesting (p : Program) : p.deepest = p.nesting := by
  have hbound (n : Nat) : p.deepest ≤ n ↔ p.nesting ≤ n := by
    rw [deepest, Descent.finish_le_iff, Descent.Within]
    simp only [List.mem_singleton, forall_eq, Nat.zero_le, true_and]
    cases p with
    | nil => simp [nesting]
    | cons i rest =>
      simp only [ne_eq, reduceCtorEq, not_false_eq_true, true_implies]
      omega
  apply Nat.le_antisymm
  · exact (hbound _).mpr (Nat.le_refl _)
  · exact (hbound _).mp (Nat.le_refl _)

/-- The height of a tree is the greatest of those of its instructions, one more than that of what
is inside. -/
theorem nesting_eq_foldr (p : Program) :
    p.nesting = (p.map fun i => 1 + nesting (i.body?.getD [])).foldr max 0 := by
  induction p with
  | nil => rfl
  | cons i rest ih =>
    rw [nesting, ih, List.map_cons, List.foldr_cons]
    cases i <;> rfl

/-! ## The number of instructions -/

/-- The size of a program is that of its instructions, each one more than what is inside. -/
theorem programSize_eq_sum (p : Program) :
    programSize p = (p.map fun i => 1 + programSize (i.body?.getD [])).sum := by
  induction p with
  | nil => rfl
  | cons i rest ih =>
    rw [programSize, ih, List.map_cons, List.sum_cons]
    cases i <;> rfl

/-- It is also the instructions at the top and the sizes of the programs inside them. -/
theorem programSize_eq_inner (p : Program) :
    programSize p = p.length + (p.inner.map programSize).sum := by
  induction p with
  | nil => rfl
  | cons i rest ih =>
    rw [inner] at ih
    rw [programSize, ih, inner, List.filterMap_cons, List.length_cons]
    cases i with
    | block header body =>
      simp only [Instruction.body?, Instruction.size, List.map_cons, List.sum_cons]
      omega
    | move d | call | noop =>
      simp only [Instruction.body?, Instruction.size]
      omega

/-- At any stage the instructions counted and those put aside are the same number together. -/
theorem totalFrom_eq (total : Nat) (pending : List Program) :
    totalFrom total pending = total + (pending.map programSize).sum := by
  fun_induction totalFrom total pending with
  | case1 total => rfl
  | case2 total p pending ih =>
    rw [ih, List.map_append, List.map_reverse, List.sum_append, List.sum_reverse, List.map_cons,
      List.sum_cons, programSize_eq_inner p]
    omega

theorem total_eq_programSize (p : Program) : p.total = programSize p := by
  simp [total, totalFrom_eq]

/-- A program has as many levels as instructions. -/
theorem length_levelsFrom (p : Program) (level : Nat) :
    (p.levelsFrom level).length = programSize p := by
  induction p using Instruction.programInduction generalizing level with
  | nil => rfl
  | block header body rest ihBody ih =>
    rw [levelsFrom, Instruction.levelsFrom, List.length_append, List.length_cons, ihBody, ih,
      programSize, Instruction.size]
    omega
  | move d rest ih | call rest ih | noop rest ih =>
    rw [levelsFrom, Instruction.levelsFrom, List.length_append, List.length_singleton, ih,
      programSize, Instruction.size]

theorem count_eq_programSize (p : Program) : p.count = programSize p := by
  rw [count, levels_eq, length_levelsFrom]

/-- A tree is no higher than the number of its instructions. -/
theorem nesting_le_programSize (p : Program) : p.nesting ≤ programSize p := by
  induction p using Instruction.programInduction with
  | nil => exact Nat.le_refl 0
  | block header body rest ihBody ih =>
    rw [nesting, Instruction.nesting, programSize, Instruction.size]
    omega
  | move d rest ih | call rest ih | noop rest ih =>
    rw [nesting, Instruction.nesting, programSize, Instruction.size]
    omega

/-! ## The tokens -/

theorem length_nodes (p : Program) : p.nodes.length = programSize p := by
  induction p using Instruction.programInduction with
  | nil => rfl
  | block header body rest ihBody ih =>
    rw [nodes, Instruction.nodes, List.length_append, List.length_cons, ihBody, ih, programSize,
      Instruction.size]
    omega
  | move d rest ih | call rest ih | noop rest ih =>
    rw [nodes, Instruction.nodes, List.length_append, List.length_singleton, ih, programSize,
      Instruction.size]

/-- They are the instructions that occur in the program. -/
theorem mem_nodes {p : Program} {i : Instruction} : i ∈ p.nodes ↔ i.OccursIn p := by
  induction p using Instruction.programInduction with
  | nil => exact iff_of_false List.not_mem_nil Instruction.not_occursIn_nil
  | block header body rest ihBody ih =>
    rw [nodes, Instruction.nodes, List.mem_append, List.mem_cons, ihBody, ih,
      Instruction.occursIn_block, or_assoc]
  | move d rest ih | call rest ih | noop rest ih =>
    rw [nodes, Instruction.nodes, List.mem_append, List.mem_singleton, ih,
      Instruction.occursIn_cons rfl]

end Program

namespace Language

open Instruction (isNoop)

/-- What has been said of the tokens of one instruction and of a program holds of both in a row. -/
theorem length_blocks_cons {i : Instruction} {rest : Program}
    (hi : (blocks [i]).length + i.nodes.countP isNoop =
      i.nodes.length + i.nodes.countP (·.body?.isSome))
    (hrest : (blocks rest).length + rest.nodes.countP isNoop =
      rest.nodes.length + rest.nodes.countP (·.body?.isSome)) :
    (blocks (i :: rest)).length + (Program.nodes (i :: rest)).countP isNoop =
      (Program.nodes (i :: rest)).length +
        (Program.nodes (i :: rest)).countP (·.body?.isSome) := by
  rw [← List.singleton_append, blocks_append, List.singleton_append, Program.nodes,
    List.length_append, List.length_append, List.countP_append, List.countP_append]
  omega

/-- A program has a token for every instruction but those that do nothing, and a second one for each
that has a program inside it. -/
theorem length_blocks (p : Program) :
    (blocks p).length + p.nodes.countP isNoop =
      p.nodes.length + p.nodes.countP (·.body?.isSome) := by
  induction p using Instruction.programInduction with
  | nil => rfl
  | block header body rest ihBody ih =>
    refine length_blocks_cons ?_ ih
    rw [blocks_block, blocks_nil, Instruction.nodes, List.length_cons, List.length_append,
      List.length_cons, List.length_nil, List.countP_cons_of_neg (by simp [isNoop]),
      List.countP_cons_of_pos (by rfl), List.length_cons]
    omega
  | move d rest ih => exact length_blocks_cons rfl ih
  | call rest ih => exact length_blocks_cons rfl ih
  | noop rest ih => exact length_blocks_cons rfl ih

end Language

namespace Program

open Instruction (isNoop)

/-- Looking through a program finds its recursive measures. Its depth is that of its tree: 0 for the
empty program, else the greatest over its instructions of one more than the depth of what is inside.
Its size is the sum over its instructions of one more than the size of what is inside. They are the
same as the depth and the number of its levels. So it is no deeper than large; and without an
instruction that does nothing it has as many tokens as instructions, and one more for each that has
a program inside it. -/
theorem measures_follow_the_tree (p : Program) :
    p.deepest = p.nesting ∧ p.total = programSize p ∧
    p.maxDepth = p.nesting ∧ p.count = programSize p ∧
    p.nesting = (p.map fun i => 1 + nesting (i.body?.getD [])).foldr max 0 ∧
    programSize p = (p.map fun i => 1 + programSize (i.body?.getD [])).sum ∧
    p.deepest ≤ p.total ∧
    (p.Free isNoop →
      (Language.blocks p).length = p.total + p.nodes.countP (·.body?.isSome)) := by
  refine ⟨p.deepest_eq_nesting, p.total_eq_programSize, p.maxDepth_eq_nesting,
    p.count_eq_programSize, p.nesting_eq_foldr, p.programSize_eq_sum, ?_, fun hfree => ?_⟩
  · rw [deepest_eq_nesting, total_eq_programSize]
    exact p.nesting_le_programSize
  · have hnone : p.nodes.countP isNoop = 0 := by
      rw [List.countP_eq_zero]
      intro i hi
      simp [hfree i (mem_nodes.mp hi)]
    have htokens := Language.length_blocks p
    rwa [hnone, Nat.add_zero, length_nodes, ← total_eq_programSize] at htokens

/-- A function with an empty loop and a call in it, and a move after it: two levels, four
instructions, and two of them with a program inside, which makes six tokens. -/
theorem measures_of_function :
    let p : Program := [.block .function [.block (.times 2) [], .call], .move .up]
    p.Free isNoop ∧ p.deepest = 2 ∧ p.total = 4 ∧ p.deepest ≤ p.total ∧
      (Language.blocks p).length = 6 := by
  intro p
  have hfree : p.Free isNoop := without_eq_self_iff.mp rfl
  obtain ⟨hdeepest, htotal, -, -, -, -, hle, htokens⟩ := measures_follow_the_tree p
  have hdeepest : p.deepest = 2 := hdeepest
  have htotal : p.total = 4 := htotal
  have htokens := htokens hfree
  rw [htotal] at htokens
  exact ⟨hfree, hdeepest, htotal, hle, htokens⟩

end Program

end Labyrinth
