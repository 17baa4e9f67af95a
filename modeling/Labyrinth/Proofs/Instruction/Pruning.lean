import Labyrinth.Instruction

/-!
# Programs with some instructions left out

An instruction occurs in a program if it stands at the top of it or inside a block, however
deep. `Program.without` leaves out what a test picks, at every level and with all that is
inside it; by `Program.without_eq_self_iff` the program stays as it is exactly if the test picks
nothing that occurs in it.
-/

namespace Labyrinth

namespace Instruction

/-- The instruction that does nothing. -/
def isNoop : Instruction → Bool
  | noop => true
  | move _ | block .. | call => false

/-- An instruction stands in a program, at the top or inside a block. -/
inductive OccursIn (i : Instruction) : Program → Prop
  /-- It is the first. -/
  | head (rest : Program) : OccursIn i (i :: rest)
  /-- It stands after the first. -/
  | tail (j : Instruction) {rest : Program} (h : OccursIn i rest) : OccursIn i (j :: rest)
  /-- It stands inside a first block. -/
  | inside (header : Header) {body : Program} (rest : Program) (h : OccursIn i body) :
    OccursIn i (block header body :: rest)

variable {i j : Instruction} {body rest : Program} {header : Header}

theorem not_occursIn_nil : ¬ i.OccursIn [] := by
  intro h
  cases h

/-- In a program that begins with a block, an instruction is the block or occurs inside it or after
it. -/
theorem occursIn_block :
    i.OccursIn (block header body :: rest) ↔
      i = block header body ∨ i.OccursIn body ∨ i.OccursIn rest := by
  constructor
  · intro h
    cases h with
    | head => exact .inl rfl
    | tail _ h => exact .inr (.inr h)
    | inside _ _ h => exact .inr (.inl h)
  · rintro (rfl | h | h)
    · exact .head rest
    · exact .inside header rest h
    · exact .tail _ h

/-- In a program that does not begin with a block, an instruction is the first or occurs after
it. -/
theorem occursIn_cons (hj : j.body? = none) :
    i.OccursIn (j :: rest) ↔ i = j ∨ i.OccursIn rest := by
  constructor
  · intro h
    cases h with
    | head => exact .inl rfl
    | tail _ h => exact .inr h
    | inside => cases hj
  · rintro (rfl | h)
    · exact .head rest
    · exact .tail j h

end Instruction

section

variable (drop : Instruction → Bool)

mutual

/-- An instruction with nothing inside it that a test picks. -/
def Instruction.pruned : Instruction → Instruction
  | .block header body => .block header (Program.without body)
  | .move d => .move d
  | .call => .call
  | .noop => .noop

/-- A program without the instructions that a test picks, at every level; with an instruction all
that is inside it is left out. -/
def Program.without : Program → Program
  | [] => []
  | i :: rest => if drop i then Program.without rest else i.pruned :: Program.without rest

end

end

namespace Program

/-- Nothing that a test picks occurs in the program. -/
def Free (drop : Instruction → Bool) (p : Program) : Prop := ∀ i, i.OccursIn p → drop i = false

variable {drop : Instruction → Bool} {i : Instruction} {rest : Program}

theorem without_cons_of_pos (h : drop i = true) : without drop (i :: rest) = without drop rest := by
  rw [without, if_pos h]

theorem without_cons_of_neg (h : drop i = false) :
    without drop (i :: rest) = i.pruned drop :: without drop rest := by
  rw [without, if_neg (by simp [h])]

/-- What is left out of one program and of another is left out of both in a row. -/
theorem without_append (p q : Program) :
    without drop (p ++ q) = p.without drop ++ q.without drop := by
  induction p with
  | nil => rfl
  | cons i p ih =>
    rw [List.cons_append, without, without, ih]
    split <;> rfl

/-- Leaving out makes no program longer. -/
theorem length_without_le (p : Program) : (p.without drop).length ≤ p.length := by
  induction p with
  | nil => simp [without]
  | cons i rest ih =>
    rw [without]
    split <;> simp only [List.length_cons] <;> omega

/-- A program from which the first instruction is left out does not stay as it is. -/
theorem without_cons_ne (h : drop i = true) : without drop (i :: rest) ≠ i :: rest := by
  intro he
  have hle : (without drop rest).length ≤ rest.length := length_without_le rest
  rw [without_cons_of_pos h] at he
  rw [he, List.length_cons] at hle
  omega

/-- A first instruction that is no block stays, and the rest is left as it is, exactly if none of
them is picked. -/
theorem without_cons_eq_self_iff (hi : i.body? = none)
    (ih : without drop rest = rest ↔ Free drop rest) :
    without drop (i :: rest) = i :: rest ↔ Free drop (i :: rest) := by
  have hpruned : i.pruned drop = i := by
    cases i with
    | block => cases hi
    | _ => rfl
  cases h : drop i with
  | true =>
    refine iff_of_false (without_cons_ne h) fun hfree => ?_
    rw [hfree i (.head rest)] at h
    cases h
  | false =>
    rw [without_cons_of_neg h, hpruned, List.cons.injEq, ih]
    simp only [true_and, Free, Instruction.occursIn_cons hi, forall_eq_or_imp, h]

/-- A program stays as it is exactly if nothing in it is picked. -/
theorem without_eq_self_iff {p : Program} : p.without drop = p ↔ p.Free drop := by
  induction p using Instruction.programInduction with
  | nil => exact iff_of_true rfl fun i hi => absurd hi Instruction.not_occursIn_nil
  | move d rest ih => exact without_cons_eq_self_iff rfl ih
  | block header body rest ihBody ih =>
    cases h : drop (.block header body) with
    | true =>
      refine iff_of_false (without_cons_ne h) fun hfree => ?_
      rw [hfree _ (.head rest)] at h
      cases h
    | false =>
      rw [without_cons_of_neg h, Instruction.pruned, List.cons.injEq, Instruction.block.injEq,
        ihBody, ih]
      simp only [true_and, Free, Instruction.occursIn_block, or_imp, forall_and, forall_eq, h]
  | call rest ih => exact without_cons_eq_self_iff rfl ih
  | noop rest ih => exact without_cons_eq_self_iff rfl ih

end Program

end Labyrinth
