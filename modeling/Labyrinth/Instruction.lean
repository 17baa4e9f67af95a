import Labyrinth.Position

/-!
# The instruction tree

A program is a list of instructions; a block is a header with a program inside.
`Instruction.programInduction` is the induction that follows a program and all its
blocks, and equality of programs is decidable. Counts and thresholds are 32-bit
words: `clampCount` brings any integer into their range and fixes those already there.
-/

namespace Labyrinth

/-- What a block does with the program inside it. -/
inductive Header where
  /-- Run it a number of times. -/
  | times (count : UInt32)
  /-- Run it once if the player holds at least so many strawberries. -/
  | atLeast (threshold : UInt32)
  /-- Reserved: run it until the goal is reached. -/
  | untilGoal
  /-- Reserved: run it as long as a strawberry is held. -/
  | whileHolding
  /-- Reserved: the body of the learner's function. -/
  | function
  deriving DecidableEq, Repr

/-- One node of a program. -/
inductive Instruction where
  /-- Try to move one cell. -/
  | move (direction : Direction)
  /-- A block: a header and the program it governs. -/
  | block (header : Header) (body : List Instruction)
  /-- Reserved: a call of the learner's function. -/
  | call
  /-- Does nothing. -/
  | noop
  deriving Repr

/-- A program is a list of instructions, run from the first to the last. -/
abbrev Program := List Instruction

/-- An integer brought into the range of counts: the nearest 32-bit word. -/
def clampCount (n : Int) : UInt32 := UInt32.ofNat (min n.toNat 4294967295)

/-- Clamping goes to the nearest number in range. -/
theorem clampCount_toNat (n : Int) : (clampCount n).toNat = min n.toNat 4294967295 := by
  simp only [clampCount, UInt32.toNat_ofNat']
  omega

/-- A number in range is its own clamped value. -/
theorem clampCount_of_toNat (w : UInt32) : clampCount (w.toNat : Int) = w := by
  apply UInt32.toNat_inj.mp
  rw [clampCount_toNat]
  have := w.toNat_lt
  simp only [Int.toNat_natCast]
  omega

namespace Header

/-- A header that the machine passes over without running the block. -/
def isReserved : Header → Bool
  | times _ | atLeast _ => false
  | untilGoal | whileHolding | function => true

end Header

namespace Instruction

/-- A loop with any integer count. -/
def repeated (count : Int) (body : Program) : Instruction := block (.times (clampCount count)) body

/-- An instruction that does nothing when it is run. -/
def isReserved : Instruction → Bool
  | move _ => false
  | block header _ => header.isReserved
  | call | noop => true

/-- The program inside a block; nothing for an instruction that is no block. -/
def body? : Instruction → Option Program
  | block _ body => some body
  | _ => none

mutual

/-- Equality of instructions is decidable. -/
protected def decEq : (a b : Instruction) → Decidable (a = b)
  | move d, move e => decidable_of_iff (d = e) (by simp)
  | block h p, block k q =>
    match Instruction.programDecEq p q with
    | isTrue hb => decidable_of_iff (h = k) (by simp [hb])
    | isFalse hb => isFalse (by simp [hb])
  | call, call | noop, noop => isTrue rfl
  | move _, block .. | move _, call | move _, noop => isFalse (by simp)
  | block .., move _ | block .., call | block .., noop => isFalse (by simp)
  | call, move _ | call, block .. | call, noop => isFalse (by simp)
  | noop, move _ | noop, block .. | noop, call => isFalse (by simp)

/-- Equality of programs is decidable. -/
protected def programDecEq : (p q : Program) → Decidable (p = q)
  | [], [] => isTrue rfl
  | [], _ :: _ | _ :: _, [] => isFalse (by simp)
  | a :: p, b :: q =>
    match Instruction.decEq a b with
    | isFalse h => isFalse (by simp [h])
    | isTrue h =>
      match Instruction.programDecEq p q with
      | isTrue hr => isTrue (by simp [h, hr])
      | isFalse hr => isFalse (by simp [hr])

end

instance : DecidableEq Instruction := Instruction.decEq

mutual

/-- The number of instructions in one instruction, itself and those inside it. -/
def size : Instruction → Nat
  | block _ body => 1 + programSize body
  | move _ | call | noop => 1

/-- The number of instructions in a program, at every level. -/
def programSize : Program → Nat
  | [] => 0
  | i :: rest => i.size + programSize rest

end

theorem size_pos (i : Instruction) : 0 < i.size := by
  cases i <;> simp only [size] <;> omega

section Induction

variable {motive : Program → Prop} (nil : motive [])
  (move : ∀ d rest, motive rest → motive (Instruction.move d :: rest))
  (block : ∀ h body rest, motive body → motive rest → motive (Instruction.block h body :: rest))
  (call : ∀ rest, motive rest → motive (Instruction.call :: rest))
  (noop : ∀ rest, motive rest → motive (Instruction.noop :: rest))

include nil move block call noop in
/-- What holds of the empty program and passes from the rest of a program, and from the
inside of a first block, to the whole program holds of every program. -/
@[elab_as_elim]
theorem programInduction (p : Program) : motive p :=
  match p with
  | [] => nil
  | Instruction.move d :: rest => move d rest (programInduction rest)
  | Instruction.block h body :: rest =>
    block h body rest (programInduction body) (programInduction rest)
  | Instruction.call :: rest => call rest (programInduction rest)
  | Instruction.noop :: rest => noop rest (programInduction rest)
termination_by programSize p
decreasing_by all_goals (simp only [programSize, size]; omega)

end Induction

end Instruction

end Labyrinth
