import Labyrinth.Instruction.Levels

/-!
# How deep programs are nested

The nesting levels of a program are gathered with a list of programs still to visit; by
`Program.levels_eq` they are those of the tree, and by `Program.maxDepth_eq_nesting` the greatest of
them is its height. A run enters no more levels than `Program.reach`, which counts neither what is
inside loops of no rounds nor what is inside reserved blocks.
-/

namespace Labyrinth

mutual

/-- The nesting levels of an instruction at a level: its own and those inside it. -/
def Instruction.levelsFrom : Instruction → Nat → List Nat
  | .block _ body, level => level :: Program.levelsFrom body (level + 1)
  | .move _, level | .call, level | .noop, level => [level]

/-- The nesting levels of the instructions of a program at a level, in the order of the text. -/
def Program.levelsFrom : Program → Nat → List Nat
  | [], _ => []
  | i :: rest, level => i.levelsFrom level ++ Program.levelsFrom rest level

end

mutual

/-- The number of levels of an instruction: its own and those inside it. -/
def Instruction.nesting : Instruction → Nat
  | .block _ body => 1 + Program.nesting body
  | .move _ | .call | .noop => 1

/-- The number of levels of a program. -/
def Program.nesting : Program → Nat
  | [] => 0
  | i :: rest => max i.nesting (Program.nesting rest)

end

mutual

/-- The number of levels that a run of an instruction may enter. -/
def Instruction.reach : Instruction → Nat
  | .block (.times n) body => if n.toNat = 0 then 0 else 1 + Program.reach body
  | .block (.atLeast _) body => 1 + Program.reach body
  | .block .untilGoal _ | .block .whileHolding _ | .block .function _ => 0
  | .move _ | .call | .noop => 0

/-- The number of levels that a run of a program may enter. -/
def Program.reach : Program → Nat
  | [] => 0
  | i :: rest => max i.reach (Program.reach rest)

end

/-- The levels still to be gathered are those of the programs still to visit. -/
theorem Instruction.gatherLevels_eq (found : List Nat) (pending : List (Program × Nat)) :
    gatherLevels found pending =
      found.reverse ++ pending.flatMap (fun p => Program.levelsFrom p.1 p.2) := by
  fun_induction gatherLevels found pending with
  | case1 found => simp
  | case2 found level pending ih => simp [ih, Program.levelsFrom]
  | case3 found header body rest level pending ih =>
    simp [ih, Program.levelsFrom, Instruction.levelsFrom]
  | case4 found d rest level pending ih => simp [ih, Program.levelsFrom, Instruction.levelsFrom]
  | case5 found rest level pending ih => simp [ih, Program.levelsFrom, Instruction.levelsFrom]
  | case6 found rest level pending ih => simp [ih, Program.levelsFrom, Instruction.levelsFrom]

namespace Program

/-- The levels of a program are those of its tree, outermost 1. -/
theorem levels_eq (p : Program) : p.levels = p.levelsFrom 1 := by
  simp [levels, Instruction.gatherLevels_eq]

/-- The greatest level of a program that stands inside `level` blocks. -/
theorem foldl_max_levelsFrom (p : Program) {level found : Nat} (h : level ≤ found) :
    (p.levelsFrom (level + 1)).foldl max found = max found (level + p.nesting) := by
  induction p using Instruction.programInduction generalizing level found with
  | nil =>
    rw [levelsFrom, nesting, List.foldl_nil]
    omega
  | block header body rest ihBody ih =>
    rw [levelsFrom, Instruction.levelsFrom, nesting, Instruction.nesting, List.foldl_append,
      List.foldl_cons, ihBody (Nat.le_max_right _ _), ih (by omega)]
    omega
  | move d rest ih | call rest ih | noop rest ih =>
    rw [levelsFrom, Instruction.levelsFrom, nesting, Instruction.nesting, List.foldl_append,
      List.foldl_cons, List.foldl_nil, ih (by omega)]
    omega

/-- The depth of a program is the number of levels of its tree. -/
theorem maxDepth_eq_nesting (p : Program) : p.maxDepth = p.nesting := by
  rw [maxDepth, levels_eq, p.foldl_max_levelsFrom (Nat.le_refl 0)]
  omega

/-- A run enters no more levels than there are. -/
theorem reach_le_nesting (p : Program) : p.reach ≤ p.nesting := by
  induction p using Instruction.programInduction with
  | nil => exact Nat.le_refl 0
  | block header body rest ihBody ih =>
    rw [reach, nesting, Instruction.nesting]
    have hblock : (Instruction.block header body).reach ≤ 1 + body.reach := by
      cases header with
      | times n =>
        rw [Instruction.reach]
        split <;> omega
      | atLeast n => exact Nat.le_refl _
      | untilGoal | whileHolding | function => exact Nat.zero_le _
    omega
  | move d rest ih | call rest ih | noop rest ih =>
    rw [reach, nesting, Instruction.nesting, Instruction.reach]
    omega

theorem reach_le_maxDepth (p : Program) : p.reach ≤ p.maxDepth := by
  rw [maxDepth_eq_nesting]
  exact p.reach_le_nesting

end Program

end Labyrinth
