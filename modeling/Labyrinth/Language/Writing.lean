import Labyrinth.Language.Source

/-!
# Writing behind what is written

A program can be written without its statements being known beforehand. Everything goes behind the
text that is there already, with a semicolon before each instruction but the first. Only afterwards
is it seen by the length of the text whether the instruction has a written form: where nothing was
written the semicolon is taken back, and where nothing stands in braces they are moved together.
-/

namespace Labyrinth.Language

/-- A text cut back to its first characters. -/
def cutBack (text : String) (length : Nat) : String := String.ofList (text.toList.take length)

/-- Closes the braces that were opened where the text had a certain length. -/
def closeBraces (start : Nat) (text : String) : String :=
  if text.length = start + 2 then cutBack text start ++ "\x7b\x7d" else text ++ " \x7d"

mutual

/-- Writes an instruction behind a text. -/
def writeInstruction (text : String) : Instruction → String
  | .move d => text ++ ("move " ++ d.keyword)
  | .block h body =>
    match headerSource? h with
    | some lead =>
      let before := text ++ (lead ++ " ")
      closeBraces before.length (writeProgram (before ++ "\x7b ") true body)
    | none => text
  | .call | .noop => text

/-- Writes the instructions of a program behind a text; the first that is written needs no
semicolon. -/
def writeProgram (text : String) (first : Bool) : Program → String
  | [] => text
  | i :: rest =>
    let before := if first then text else text ++ "; "
    let after := writeInstruction before i
    if after.length = before.length then writeProgram (cutBack after text.length) first rest
    else writeProgram after false rest

end

/-- Writes a program. -/
def write (p : Program) : String := writeProgram "" true p

end Labyrinth.Language
