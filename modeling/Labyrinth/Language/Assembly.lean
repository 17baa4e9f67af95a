import Labyrinth.Language.Block

/-!
# A builder that changes in place

A block editor keeps one builder for a whole session and changes it token by token. The open blocks
stand on a stack, each with the instructions it holds so far; the function that is open stands
beside the stack and remembers how many blocks were open when it began. A token that does not fit is
answered by an error, and what was changed before the error stays changed. `Builder` has the
function among the blocks instead, and no state after an error.
-/

namespace Labyrinth.Language

/-- A block that is open, with what it holds so far. -/
structure OpenBlock where
  /-- What began the block. -/
  opener : Opener
  /-- The instructions in it. -/
  body : Program
  deriving DecidableEq, Repr

/-- The instruction that the block is when it is closed. -/
def OpenBlock.instruction (b : OpenBlock) : Instruction := .block b.opener.header b.body

/-- The function that is open, with what it holds so far. -/
structure OpenFunction where
  /-- The number of blocks that were open when the function began. -/
  base : Nat
  /-- The instructions in it. -/
  body : Program
  deriving DecidableEq, Repr

/-- What a builder that changes in place holds. -/
structure Assembly where
  /-- The instructions outside all blocks. -/
  root : Program
  /-- The open blocks, innermost first. -/
  blocks : List OpenBlock
  /-- The function that is open, if one is. -/
  function : Option OpenFunction
  /-- The number of the next token. -/
  next : Nat
  deriving DecidableEq, Repr

namespace Assembly

/-- Before the first token. -/
def empty : Assembly := ⟨[], [], none, 0⟩

/-- The function, if the instruction that comes next belongs to it directly. -/
def innermostFunction (a : Assembly) : Option OpenFunction :=
  a.function.filter (·.base = a.blocks.length)

/-- Appends an instruction to the innermost body: that of the function, of a block, or the root. -/
def append (i : Instruction) (a : Assembly) : Assembly :=
  match a.innermostFunction, a.blocks with
  | some f, _ => { a with function := some { f with body := f.body ++ [i] } }
  | none, b :: bs => { a with blocks := { b with body := b.body ++ [i] } :: bs }
  | none, [] => { a with root := a.root ++ [i] }

/-- Takes one token, or stops with an error at the first check that fails. -/
def take (t : BlockToken) : ExceptT BuildError (StateM Assembly) Unit := do
  let a ← get
  match t with
  | .move d => modify (append (.move d))
  | .call => modify (append .call)
  | .opener o => modify fun a => { a with blocks := ⟨o, []⟩ :: a.blocks }
  | .close =>
    if a.blocks = [] then throw (.unmatchedEnd a.next)
    if a.innermostFunction.isSome then throw (.endCrossesFunction a.next)
    match a.blocks with
    | [] => pure ()
    | b :: bs =>
      modify fun a => { a with blocks := bs }
      modify (append b.instruction)
  | .functionStart =>
    if a.function.isSome then throw (.nestedFunction a.next)
    modify fun a => { a with function := some ⟨a.blocks.length, []⟩ }
  | .functionEnd =>
    match a.function with
    | none => throw (.unmatchedFunctionEnd a.next)
    | some f =>
      if f.base < a.blocks.length then throw (.functionEndInsideBlock a.next)
      modify fun a => { a with function := none }
      modify (append (.block .function f.body))
  modify fun a => { a with next := a.next + 1 }

/-- One token pushed: the answer, and what the builder holds then. -/
def push (a : Assembly) (t : BlockToken) : Except BuildError Unit × Assembly := (take t).run.run a

/-- The program, when no more tokens come. -/
def finish (a : Assembly) : Except BuildError Program :=
  if a.blocks ≠ [] then .error (.unclosedBlocks a.blocks.length)
  else if a.function.isSome then .error .unclosedFunction
  else .ok a.root

end Assembly

end Labyrinth.Language
