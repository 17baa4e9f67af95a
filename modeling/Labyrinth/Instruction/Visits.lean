import Labyrinth.Instruction

/-!
# Programs looked through one after another

Depth and size of a program can be found without going into a block when it is met: the program
inside it is put aside, and what was put aside last is looked through next. What is left to do gets
less with every program that is looked through, as all that it puts aside stands inside it.
-/

namespace Labyrinth

namespace Program

/-- The programs inside the blocks at the top of a program. -/
def inner (p : Program) : List Program := p.filterMap Instruction.body?

/-- What is left to do: to meet every instruction of the programs put aside, and to end each. -/
def left : List Program → Nat
  | [] => 0
  | p :: pending => Instruction.programSize p + 1 + left pending

theorem left_append (ps qs : List Program) : left (ps ++ qs) = left ps + left qs := by
  induction ps with
  | nil => exact (Nat.zero_add _).symm
  | cons p ps ih =>
    rw [List.cons_append, left, left, ih]
    omega

theorem left_reverse (ps : List Program) : left ps.reverse = left ps := by
  induction ps with
  | nil => rfl
  | cons p ps ih =>
    rw [List.reverse_cons, left_append, ih, left, left, left]
    omega

/-- The programs inside its blocks are less to do than the program. -/
theorem left_inner_le (p : Program) : left p.inner ≤ Instruction.programSize p := by
  induction p with
  | nil => exact Nat.le_refl 0
  | cons i p ih =>
    rw [inner] at ih
    rw [inner, List.filterMap_cons, Instruction.programSize]
    cases i with
    | block header body =>
      simp only [Instruction.body?, left, Instruction.size]
      omega
    | move d => exact Nat.le_trans ih (Nat.le_add_left _ _)
    | call => exact Nat.le_trans ih (Nat.le_add_left _ _)
    | noop => exact Nat.le_trans ih (Nat.le_add_left _ _)

/-- The instructions counted so far and those of the programs put aside. -/
def totalFrom (total : Nat) : List Program → Nat
  | [] => total
  | p :: pending => totalFrom (total + p.length) (p.inner.reverse ++ pending)
termination_by pending => left pending
decreasing_by
  have hinner := left_inner_le p
  rw [left_append, left_reverse, left]
  omega

/-- The number of instructions at all levels. -/
def total (p : Program) : Nat := totalFrom 0 [p]

end Program

/-- A search for the deepest level of a program. -/
structure Descent where
  /-- The deepest level of an instruction that was met. -/
  deepest : Nat
  /-- The programs put aside, with the level of their instructions, the last one first. -/
  pending : List (Program × Nat)

namespace Descent

/-- Meets an instruction at a level; the program inside it is put aside. -/
def meet (level : Nat) (s : Descent) (i : Instruction) : Descent where
  deepest := max s.deepest level
  pending :=
    match i.body? with
    | some body => (body, level + 1) :: s.pending
    | none => s.pending

/-- Looks through a program at a level. -/
def lookThrough (s : Descent) (p : Program) (level : Nat) : Descent := p.foldl (meet level) s

/-- What is left to do. -/
def left (s : Descent) : Nat := Program.left (s.pending.map (·.1))

theorem left_meet_le (level : Nat) (s : Descent) (i : Instruction) :
    (s.meet level i).left ≤ s.left + i.size := by
  cases i with
  | block header body =>
    simp only [left, meet, Instruction.body?, List.map_cons, Program.left, Instruction.size]
    omega
  | move d => exact Nat.le_add_right _ _
  | call => exact Nat.le_add_right _ _
  | noop => exact Nat.le_add_right _ _

/-- Nothing is put aside but what stands inside the program. -/
theorem left_lookThrough_le (s : Descent) (p : Program) (level : Nat) :
    (s.lookThrough p level).left ≤ s.left + Instruction.programSize p := by
  induction p generalizing s with
  | nil => exact Nat.le_refl _
  | cons i p ih =>
    have hmeet := s.left_meet_le level i
    have hrest := ih (s.meet level i)
    rw [Instruction.programSize]
    rw [lookThrough] at hrest
    rw [lookThrough, List.foldl_cons]
    omega

/-- Looking through a program that was put aside leaves less to do. -/
theorem left_lookThrough_lt {s : Descent} {p : Program} {level : Nat}
    {others : List (Program × Nat)} (h : s.pending = (p, level) :: others) :
    ({ s with pending := others }.lookThrough p level).left < s.left := by
  refine Nat.lt_of_le_of_lt (left_lookThrough_le _ _ _) ?_
  simp only [left, h, List.map_cons, Program.left]
  omega

/-- The deepest level when nothing is put aside any more. -/
def finish (s : Descent) : Nat :=
  match _h : s.pending with
  | [] => s.deepest
  | (p, level) :: others => ({ s with pending := others }.lookThrough p level).finish
termination_by s.left
decreasing_by exact left_lookThrough_lt ‹_›

end Descent

/-- The deepest level of a program: 0 for the empty one, 1 for one without blocks. -/
def Program.deepest (p : Program) : Nat := Descent.finish ⟨0, [(p, 1)]⟩

end Labyrinth
