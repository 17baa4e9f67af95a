import Labyrinth.Instruction

/-!
# Writing program text

A program is written as its statements with a semicolon between them. Moves, loops and
conditions have a written form; reserved instructions and the one that does nothing have
none and are left out, together with the separator they would need.
-/

namespace Labyrinth.Language

/-- Statements one after another. -/
def joinStatements (statements : List String) : String := String.intercalate "; " statements

/-- Statements in braces. -/
def braced : List String → String
  | [] => "\x7b\x7d"
  | s :: ss => "\x7b " ++ joinStatements (s :: ss) ++ " \x7d"

/-- What stands before the braces of a block, if the block has a written form. -/
def headerSource? : Header → Option String
  | .times n => some ("repeat " ++ toString n.toNat)
  | .atLeast n => some ("if strawberries >= " ++ toString n.toNat)
  | .untilGoal | .whileHolding | .function => none

mutual

/-- The written form of an instruction, if it has one. -/
def statement? : Instruction → Option String
  | .move d => some ("move " ++ d.keyword)
  | .block h body => (headerSource? h).map (fun lead => lead ++ " " ++ braced (statements body))
  | .call | .noop => none

/-- The written forms of the instructions that have one. -/
def statements : Program → List String
  | [] => []
  | i :: rest =>
    match statement? i with
    | some s => s :: statements rest
    | none => statements rest

end

/-- The written form of a program. -/
def source (p : Program) : String := joinStatements (statements p)

end Labyrinth.Language
