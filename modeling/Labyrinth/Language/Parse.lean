import Labyrinth.Language.Token
import Labyrinth.Language.Nest
import Labyrinth.Text.Integer

/-!
# Reading program text

The grammar has four statements: a move with a direction, a loop with a count, a
condition with a threshold, and an empty statement written as a semicolon. Loops and
conditions have a program in braces. The reader takes the words one at a time and
remembers what the statement begun asks for next, so an error is always found at the
first word that cannot be read on, or after the last word. `parse` reads a whole text.
-/

namespace Labyrinth.Language

/-- What the grammar asks for where it leaves no choice of statement. -/
inductive Expected where
  /-- This very word. -/
  | word (text : String)
  /-- An integer. -/
  | integer
  /-- A direction. -/
  | direction
  deriving DecidableEq, Repr

/-- Why a text is no program. -/
inductive SyntaxFault where
  /-- A closing brace stands where no block is open. -/
  | trailing (found : String)
  /-- Something else, or the end of the text, stands where one thing is asked for. -/
  | missing (expected : Expected) (found : Option String)
  /-- A word that names no direction stands where a direction is asked for. -/
  | unknownDirection (found : String)
  /-- A word that begins no statement stands where a statement may begin. -/
  | unknownKeyword (found : String)
  deriving DecidableEq, Repr

/-- A fault and the number of words before it. -/
structure SyntaxError where
  /-- The index of the faulty word; the number of words if the text ends too early. -/
  index : Nat
  /-- What is wrong there. -/
  fault : SyntaxFault
  deriving DecidableEq, Repr

/-- How the thing asked for is named in a message. -/
def Expected.text : Expected → String
  | word w => "'" ++ w ++ "'"
  | integer => "integer"
  | direction => "direction"

/-- The description of a fault. -/
def SyntaxFault.message : SyntaxFault → String
  | trailing found => "unexpected tokens at end, starting with '" ++ found ++ "'"
  | missing expected (some found) => "expected " ++ expected.text ++ ", found '" ++ found ++ "'"
  | missing expected none => "expected " ++ expected.text ++ ", found end of input"
  | unknownDirection found => "unknown direction '" ++ found ++ "'"
  | unknownKeyword found => "unknown keyword '" ++ found ++ "'"

/-- A description with the place it speaks of. -/
def atToken (index : Nat) (description : String) : String :=
  "syntax error at token " ++ toString index ++ ": " ++ description

/-- The message of a syntax error. -/
def SyntaxError.message (e : SyntaxError) : String := atToken e.index e.fault.message

/-- What the statement begun asks for next. -/
inductive Awaiting where
  /-- No statement is begun. -/
  | statement
  /-- The direction of a move. -/
  | direction
  /-- The count of a loop. -/
  | count
  /-- The word for the thing that a condition counts. -/
  | subject
  /-- The comparison of a condition. -/
  | comparison
  /-- The threshold of a condition. -/
  | threshold
  /-- The brace that opens the block of this header. -/
  | brace (header : Header)
  deriving DecidableEq, Repr

/-- The words read so far, as a nest and the demand of the statement begun. -/
structure Reading where
  /-- The program read so far. -/
  nest : Nest
  /-- What has to come next. -/
  awaiting : Awaiting
  deriving DecidableEq, Repr

namespace Reading

/-- Before the first word. -/
def start : Reading := ⟨.empty, .statement⟩

/-- Takes this very word and then awaits `next`. -/
def takeWord (r : Reading) (expected word : String) (next : Awaiting) :
    Except SyntaxFault Reading :=
  if word = expected then .ok { r with awaiting := next }
  else .error (.missing (.word expected) (some word))

/-- Takes an integer and then awaits the block of the header that it gives. -/
def takeInteger (r : Reading) (word : String) (header : UInt32 → Header) :
    Except SyntaxFault Reading :=
  match Text.readInt64? word with
  | some n => .ok { r with awaiting := .brace (header (clampCount n)) }
  | none => .error (.missing .integer (some word))

/-- Takes the direction of a move. -/
def takeDirection (r : Reading) (word : String) : Except SyntaxFault Reading :=
  match Direction.ofKeyword? word with
  | some d => .ok ⟨r.nest.append (.move d), .statement⟩
  | none => .error (.unknownDirection word)

/-- Takes the first word of a statement, or the brace that closes a block. -/
def takeKeyword (r : Reading) (word : String) : Except SyntaxFault Reading :=
  if word = "\x7d" then
    match r.nest.leave? with
    | some (_, n) => .ok ⟨n, .statement⟩
    | none => .error (.trailing word)
  else if word = ";" then .ok r
  else if word = "move" then .ok { r with awaiting := .direction }
  else if word = "repeat" then .ok { r with awaiting := .count }
  else if word = "if" then .ok { r with awaiting := .subject }
  else .error (.unknownKeyword word)

/-- Takes the next word. -/
def take (r : Reading) (word : String) : Except SyntaxFault Reading :=
  match r.awaiting with
  | .statement => r.takeKeyword word
  | .direction => r.takeDirection word
  | .count => r.takeInteger word .times
  | .subject => r.takeWord "strawberries" word .comparison
  | .comparison => r.takeWord ">=" word .threshold
  | .threshold => r.takeInteger word .atLeast
  | .brace header =>
    if word = "\x7b" then .ok ⟨r.nest.enter header, .statement⟩
    else .error (.missing (.word "\x7b") (some word))

/-- The program read, when no more words come. -/
def finish (r : Reading) : Except SyntaxFault Program :=
  match r.awaiting with
  | .statement =>
    match r.nest.finished? with
    | some p => .ok p
    | none => .error (.missing (.word "\x7d") none)
  | .direction => .error (.missing .direction none)
  | .count | .threshold => .error (.missing .integer none)
  | .subject => .error (.missing (.word "strawberries") none)
  | .comparison => .error (.missing (.word ">=") none)
  | .brace _ => .error (.missing (.word "\x7b") none)

/-- Reads on from the word number `index`. -/
def readFrom (r : Reading) (index : Nat) : List String → Except SyntaxError Program
  | [] => r.finish.mapError (fun f => ⟨index, f⟩)
  | word :: words =>
    match r.take word with
    | .ok next => next.readFrom (index + 1) words
    | .error f => .error ⟨index, f⟩

end Reading

/-- The program that a row of words is. -/
def parseWords (words : List String) : Except SyntaxError Program := Reading.start.readFrom 0 words

/-- The program that a text is. -/
def parse (text : String) : Except SyntaxError Program :=
  parseWords ((tokenize text).map Token.text)

end Labyrinth.Language
