import Labyrinth.Language.Nest

/-!
# Programs from block tokens

A block editor delivers a program as a row of tokens: moves and calls, the beginnings
of blocks, and the ends that close them. A builder takes the tokens one by one; it
refuses a token that fits nowhere, and is then as it was. The learner's function has
its own beginning and end, cannot stand inside another function, and closes only when
every block opened inside it is closed. `blocks` goes the other way.
-/

namespace Labyrinth.Language

/-- The beginning of a block that an ordinary end closes; counts may be any integers. -/
inductive Opener where
  /-- A loop. -/
  | times (count : Int)
  /-- A condition on the strawberries held. -/
  | atLeast (threshold : Int)
  /-- Reserved: a loop until the goal is reached. -/
  | untilGoal
  /-- Reserved: a loop as long as a strawberry is held. -/
  | whileHolding
  deriving DecidableEq, Repr

/-- One block of the editor. -/
inductive BlockToken where
  /-- A move. -/
  | move (direction : Direction)
  /-- The beginning of a block. -/
  | opener (o : Opener)
  /-- The end of a block. -/
  | close
  /-- The beginning of the learner's function. -/
  | functionStart
  /-- The end of the learner's function. -/
  | functionEnd
  /-- A call of the learner's function. -/
  | call
  deriving DecidableEq, Repr

/-- Why a row of block tokens is no program. -/
inductive BuildError where
  /-- An end with no open block. -/
  | unmatchedEnd (index : Nat)
  /-- So many blocks are open after the last token. -/
  | unclosedBlocks (count : Nat)
  /-- The beginning of a function inside a function. -/
  | nestedFunction (index : Nat)
  /-- The end of a function with no beginning. -/
  | unmatchedFunctionEnd (index : Nat)
  /-- The end of a function inside a block of the function. -/
  | functionEndInsideBlock (index : Nat)
  /-- An end that would close a block around the function. -/
  | endCrossesFunction (index : Nat)
  /-- The function is open after the last token. -/
  | unclosedFunction
  deriving DecidableEq, Repr

/-- The message of a build error. -/
def BuildError.message : BuildError → String
  | unmatchedEnd i => "block end at " ++ toString i ++ " has no open block"
  | unclosedBlocks n => toString n ++ " block(s) left open"
  | nestedFunction i => "function start at " ++ toString i ++ " inside another function"
  | unmatchedFunctionEnd i => "function end at " ++ toString i ++ " has no function start"
  | functionEndInsideBlock i =>
    "function end at " ++ toString i ++ " while a block inside it is open"
  | endCrossesFunction i =>
    "block end at " ++ toString i ++ " would close a block outside the function"
  | unclosedFunction => "function body left open"

namespace Opener

/-- The condition of the editor's block without a threshold: at least one strawberry. -/
def holding : Opener := atLeast 1

/-- The header of the block, its count brought into range. -/
def header : Opener → Header
  | times n => .times (clampCount n)
  | atLeast n => .atLeast (clampCount n)
  | untilGoal => .untilGoal
  | whileHolding => .whileHolding

end Opener

/-- The tokens accepted so far, as a nest in which a function counts as a layer. -/
structure Builder where
  /-- The program built so far. -/
  nest : Nest
  /-- The number of tokens accepted. -/
  accepted : Nat
  deriving DecidableEq, Repr

namespace Builder

/-- Before the first token. -/
def empty : Builder := ⟨.empty, 0⟩

/-- The number of open blocks; a function that is open does not count. -/
def openBlocks (b : Builder) : Nat := b.nest.layers.countP (fun l => l.header != .function)

/-- Whether a function is open. -/
def inFunction (b : Builder) : Bool := b.nest.layers.any (fun l => l.header == .function)

/-- The builder after one more accepted token. -/
def accept (b : Builder) (nest : Nest) : Builder := ⟨nest, b.accepted + 1⟩

/-- Takes one token, or says why it fits nowhere. -/
def push (b : Builder) : BlockToken → Except BuildError Builder
  | .move d => .ok (b.accept (b.nest.append (.move d)))
  | .call => .ok (b.accept (b.nest.append .call))
  | .opener o => .ok (b.accept (b.nest.enter o.header))
  | .close =>
    match b.nest.leave? with
    | none => .error (.unmatchedEnd b.accepted)
    | some (.function, _) =>
      .error (if b.openBlocks = 0 then .unmatchedEnd b.accepted else .endCrossesFunction b.accepted)
    | some (_, n) => .ok (b.accept n)
  | .functionStart =>
    if b.inFunction then .error (.nestedFunction b.accepted)
    else .ok (b.accept (b.nest.enter .function))
  | .functionEnd =>
    match b.nest.leave? with
    | some (.function, n) => .ok (b.accept n)
    | _ =>
      .error (if b.inFunction then .functionEndInsideBlock b.accepted
        else .unmatchedFunctionEnd b.accepted)

/-- The program built, when no more tokens come. -/
def finish (b : Builder) : Except BuildError Program :=
  if b.openBlocks ≠ 0 then .error (.unclosedBlocks b.openBlocks)
  else
    match b.nest.finished? with
    | some p => .ok p
    | none => .error .unclosedFunction

/-- Takes tokens up to the first that fits nowhere. -/
def pushAll (b : Builder) : List BlockToken → Except BuildError Builder
  | [] => .ok b
  | t :: ts =>
    match b.push t with
    | .ok next => next.pushAll ts
    | .error e => .error e

end Builder

/-- The program that a row of block tokens is. -/
def build (tokens : List BlockToken) : Except BuildError Program :=
  match Builder.empty.pushAll tokens with
  | .ok b => b.finish
  | .error e => .error e

/-- The tokens that open and close the block of a header. -/
def delimiters : Header → BlockToken × BlockToken
  | .times n => (.opener (.times n.toNat), .close)
  | .atLeast n => (.opener (.atLeast n.toNat), .close)
  | .untilGoal => (.opener .untilGoal, .close)
  | .whileHolding => (.opener .whileHolding, .close)
  | .function => (.functionStart, .functionEnd)

mutual

/-- The tokens of an instruction, followed by `rest`. -/
def instructionBlocks : Instruction → List BlockToken → List BlockToken
  | .move d, rest => .move d :: rest
  | .block h body, rest =>
    (delimiters h).1 :: programBlocks body ((delimiters h).2 :: rest)
  | .call, rest => .call :: rest
  | .noop, rest => rest

/-- The tokens of a program, followed by `rest`. -/
def programBlocks : Program → List BlockToken → List BlockToken
  | [], rest => rest
  | i :: is, rest => instructionBlocks i (programBlocks is rest)

end

/-- The tokens of a program; the instruction that does nothing has none. -/
def blocks (p : Program) : List BlockToken := programBlocks p []

/-- The opening token of a block has the header of the block, unless it opens a function. -/
theorem header_of_delimiters {h : Header} {o : Opener} (e : (delimiters h).1 = .opener o) :
    o.header = h := by
  cases h <;> simp only [delimiters, BlockToken.opener.injEq, reduceCtorEq] at e <;> subst e <;>
    simp [Opener.header, clampCount_of_toNat]

end Labyrinth.Language
