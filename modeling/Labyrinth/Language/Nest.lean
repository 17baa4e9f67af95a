import Labyrinth.Instruction

/-!
# Programs being written

A nest is a program under construction: the innermost unfinished program, and around
it the open blocks, each with the part of its surroundings that stands before it.
Instructions are appended to the innermost program, and a block that is closed is
appended to the program around it.
-/

namespace Labyrinth.Language

/-- A block that is still open. -/
structure Layer where
  /-- The header of the open block. -/
  header : Header
  /-- What stands before the block in the program around it, last first. -/
  before : List Instruction
  deriving DecidableEq, Repr

/-- A program under construction. -/
structure Nest where
  /-- The innermost unfinished program, last instruction first. -/
  body : List Instruction
  /-- The open blocks, innermost first. -/
  layers : List Layer
  deriving DecidableEq, Repr

namespace Nest

/-- Nothing written and nothing open. -/
def empty : Nest := ⟨[], []⟩

/-- Appends an instruction to the innermost program. -/
def append (n : Nest) (i : Instruction) : Nest := { n with body := i :: n.body }

/-- Opens a block inside the innermost program. -/
def enter (n : Nest) (h : Header) : Nest := ⟨[], ⟨h, n.body⟩ :: n.layers⟩

/-- Closes the innermost open block, if there is one, and says which header it had. -/
def leave? (n : Nest) : Option (Header × Nest) :=
  match n.layers with
  | [] => none
  | l :: ls => some (l.header, ⟨.block l.header n.body.reverse :: l.before, ls⟩)

/-- The finished program, if no block is open. -/
def finished? (n : Nest) : Option Program :=
  match n.layers with
  | [] => some n.body.reverse
  | _ :: _ => none

end Nest

end Labyrinth.Language
