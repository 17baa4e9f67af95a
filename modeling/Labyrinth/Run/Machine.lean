import Labyrinth.Instruction
import Labyrinth.Run.Walk

/-!
# The machine

A machine runs a program on a maze by small units of work: it begins, takes one
instruction, starts a loop's next round, or leaves a block. Blocks in progress are kept
as a stack of frames. Each unit of work may tell events and may ask for a pause after
it. `work` bounds the units that are left, and `work_step_lt` says that each unit uses
some of it up, so every run ends.
-/

namespace Labyrinth

/-- A program in progress. -/
structure Frame where
  /-- The whole program of the block. -/
  body : Program
  /-- What is left of it in this round. -/
  rest : Program
  /-- The rounds after this one. -/
  remaining : Nat
  /-- The number of blocks around the program. -/
  depth : Nat
  /-- Whether leaving the block asks for a pause. -/
  pace : Bool

/-- How a run that was not cancelled ended. -/
inductive Ending where
  /-- The whole program was run, and the player ended on the goal or not. -/
  | completed (reachedGoal : Bool)
  /-- A block was deeper than this limit. -/
  | tooDeep (limit : Nat)
  deriving DecidableEq, Repr

/-- The description of a run that went too deep. -/
def tooDeepText (limit : Nat) : String := "max depth " ++ toString limit ++ " exceeded"

/-- Where a run stands. -/
inductive Phase where
  /-- Not begun. -/
  | fresh (program : Program)
  /-- Under way: the innermost program in progress and those around it. -/
  | running (top : Frame) (below : List Frame)
  /-- Over. -/
  | over (ending : Ending)

/-- A run of a program on a maze. -/
structure Machine where
  /-- The maze. -/
  maze : Maze
  /-- The greatest depth at which a block may be entered. -/
  maxDepth : Nat
  /-- The player and the rewards picked up. -/
  walk : Walk
  /-- What has been counted. -/
  tally : Tally
  /-- Where the run stands. -/
  phase : Phase

/-- What one unit of work tells. -/
structure Output where
  /-- The events, in order. -/
  events : List Event
  /-- Whether a pause is asked for. -/
  pace : Bool
  deriving DecidableEq, Repr

namespace Machine

/-- A run that has not begun. -/
def start (program : Program) (maze : Maze) (player : Player) (maxDepth : Nat) : Machine :=
  ⟨maze, maxDepth, .ofPlayer player, .zero, .fresh program⟩

/-- The player as the run stands. -/
def player (m : Machine) : Player := m.walk.player

/-- How the run ended, if it has. -/
def ending? (m : Machine) : Option Ending :=
  match m.phase with
  | .over e => some e
  | _ => none

/-- Whether the run is over. -/
def isOver (m : Machine) : Bool := m.ending?.isSome

/-- The number of blocks around the instruction in progress. -/
def depth (m : Machine) : Nat :=
  match m.phase with
  | .running top _ => top.depth
  | _ => 0

/-- Goes on with other frames. -/
def goOn (m : Machine) (top : Frame) (below : List Frame) : Machine :=
  { m with phase := .running top below }

/-- Ends the run after the last instruction. -/
def finish (m : Machine) (pace : Bool) : Output × Machine :=
  let reached : Bool := m.maze.goal = some m.player.position
  let arrival := if reached then [Event.reachedGoal m.player.position] else []
  (⟨arrival ++ [.finished m.player], pace⟩, { m with phase := .over (.completed reached) })

/-- Ends the run because a block is too deep. -/
def giveUp (m : Machine) : Output × Machine :=
  (⟨[.log ("Execution aborted: " ++ tooDeepText m.maxDepth), .finished m.player], false⟩,
    { m with phase := .over (.tooDeep m.maxDepth) })

/-- Enters a block from the program `top`, for one round and `remaining` more. -/
def enter (m : Machine) (body : Program) (remaining : Nat) (top : Frame) (below : List Frame) :
    Output × Machine :=
  if m.maxDepth < top.depth + 1 then m.giveUp
  else
    (⟨[], false⟩,
      { m with
        tally := m.tally.countDepth (top.depth + 1)
        phase := .running ⟨body, body, remaining, top.depth + 1, true⟩ (top :: below) })

/-- Makes a move. -/
def move (m : Machine) (d : Direction) : Output × Machine :=
  let landing := m.walk.landing m.maze d
  let walk := m.walk.after d landing
  (⟨[landing.event walk.player], true⟩,
    { m with walk := walk, tally := m.tally.countMove landing })

/-- Takes one instruction; `top` is what remains to be done after it. -/
def dispatch (m : Machine) (i : Instruction) (top : Frame) (below : List Frame) :
    Output × Machine :=
  match i with
  | .move d => (m.goOn top below).move d
  | .block (.times n) body =>
    if n.toNat = 0 then (⟨[], true⟩, m.goOn top below)
    else m.enter body (n.toNat - 1) top below
  | .block (.atLeast n) body =>
    if n.toNat ≤ m.player.strawberries then m.enter body 0 top below
    else (⟨[], true⟩, m.goOn top below)
  | .block .untilGoal _ | .block .whileHolding _ | .block .function _ | .call | .noop =>
    (⟨[], false⟩, m.goOn top below)

/-- One unit of work on programs in progress. -/
def advance (m : Machine) (top : Frame) (below : List Frame) : Output × Machine :=
  match top.rest with
  | i :: rest => m.dispatch i { top with rest := rest } below
  | [] =>
    if 0 < top.remaining then
      (⟨[], false⟩, m.goOn { top with rest := top.body, remaining := top.remaining - 1 } below)
    else
      match below with
      | next :: below => (⟨[], top.pace⟩, m.goOn next below)
      | [] => m.finish top.pace

/-- One unit of work; nothing is left to do in a run that is over. -/
def step (m : Machine) : Output × Machine :=
  match m.phase with
  | .fresh program =>
    (⟨[.started m.player], false⟩, m.goOn ⟨program, program, 0, 0, false⟩ [])
  | .running top below => { m with tally := m.tally.countStep }.advance top below
  | .over _ => (⟨[], false⟩, m)

end Machine

namespace Instruction

mutual

/-- A bound on the units of work that an instruction takes. -/
def work : Instruction → Nat
  | move _ | call | noop => 1
  | block (.times n) body => 1 + n.toNat * (programWork body + 1)
  | block (.atLeast _) body => 2 + programWork body
  | block .untilGoal _ | block .whileHolding _ | block .function _ => 1

/-- A bound on the units of work that a program takes, up to its end. -/
def programWork : Program → Nat
  | [] => 0
  | i :: rest => i.work + programWork rest

end

end Instruction

namespace Frame

open Instruction in
/-- A bound on the units of work up to the end of a block, its end included. -/
def work (f : Frame) : Nat :=
  programWork f.rest + f.remaining * (programWork f.body + 1) + 1

/-- A bound on the units of work up to the end of several blocks. -/
def stackWork : List Frame → Nat
  | [] => 0
  | f :: fs => f.work + stackWork fs

end Frame

namespace Machine

open Instruction in
/-- A bound on the units of work up to the end of the run. -/
def work (m : Machine) : Nat :=
  match m.phase with
  | .fresh program => programWork program + 2
  | .running top below => top.work + Frame.stackWork below
  | .over _ => 0

theorem work_finish (m : Machine) (pace : Bool) : (m.finish pace).2.work = 0 := rfl

theorem work_giveUp (m : Machine) : m.giveUp.2.work = 0 := rfl

theorem work_goOn (m : Machine) (top : Frame) (below : List Frame) :
    (m.goOn top below).work = top.work + Frame.stackWork below := rfl

theorem work_move (m : Machine) (d : Direction) : (m.move d).2.work = m.work := rfl

open Instruction in
theorem work_enter_le (m : Machine) (body : Program) (remaining : Nat) (top : Frame)
    (below : List Frame) :
    (m.enter body remaining top below).2.work ≤
      programWork body + remaining * (programWork body + 1) + 1
        + (top.work + Frame.stackWork below) := by
  unfold enter
  split
  · simp [work_giveUp]
  · simp [work, Frame.work, Frame.stackWork]

open Instruction in
/-- Taking an instruction uses up some of its share of the work. -/
theorem work_dispatch_lt (m : Machine) (i : Instruction) (top : Frame) (below : List Frame) :
    (m.dispatch i top below).2.work < i.work + (top.work + Frame.stackWork below) := by
  unfold dispatch
  split
  · rw [work_move, work_goOn, Instruction.work]
    omega
  · rename_i n body
    rw [Instruction.work]
    split
    · rw [work_goOn]
      omega
    · rename_i hn
      have := work_enter_le m body (n.toNat - 1) top below
      obtain ⟨k, hk⟩ : ∃ k, n.toNat = k + 1 := ⟨n.toNat - 1, by omega⟩
      rw [hk] at this ⊢
      simp only [Nat.add_sub_cancel, Nat.succ_mul] at this ⊢
      omega
  · rename_i n body
    rw [Instruction.work]
    split
    · have := work_enter_le m body 0 top below
      simp only [Nat.zero_mul] at this
      omega
    · rw [work_goOn]
      omega
  all_goals
    rw [work_goOn, Instruction.work]
    omega

/-- A unit of work in a run that is not over uses up some of the work left. -/
theorem work_step_lt {m : Machine} (h : m.isOver = false) : m.step.2.work < m.work := by
  unfold step
  split
  · rename_i program hp
    simp only [work, goOn, Frame.work, hp, Frame.stackWork]
    omega
  · rename_i top below hp
    have hw : m.work = top.work + Frame.stackWork below := by simp only [work, hp]
    rw [hw]
    unfold advance
    split
    · rename_i i rest hr
      refine Nat.lt_of_lt_of_le (work_dispatch_lt _ i _ below) ?_
      simp only [Frame.work, hr, Instruction.programWork]
      omega
    · rename_i hr
      split
      · rename_i hpos
        rw [work_goOn]
        obtain ⟨k, hk⟩ : ∃ k, top.remaining = k + 1 := ⟨top.remaining - 1, by omega⟩
        simp only [Frame.work, hr, hk, Instruction.programWork, Nat.add_sub_cancel, Nat.succ_mul]
        omega
      · split
        · rename_i next below
          rw [work_goOn]
          simp only [Frame.work, Frame.stackWork]
          omega
        · rw [work_finish]
          simp only [Frame.work]
          omega
  · rename_i e hp
    simp [isOver, ending?, hp] at h

/-- A run that is over has no work left, and stays as it is. -/
theorem step_of_isOver {m : Machine} (h : m.isOver = true) : m.step = (⟨[], false⟩, m) := by
  unfold step
  split <;> rename_i hp
  · simp [isOver, ending?, hp] at h
  · simp [isOver, ending?, hp] at h
  · rfl

end Machine

end Labyrinth
