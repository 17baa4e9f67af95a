import Labyrinth.Proofs.Run.Course

/-!
# What a program means

The meaning of a program follows the tree: a block is the meaning of its body, over and
over, at one more level of depth. Neither stacks nor counters of the machine occur in it.
`Meaning.program` gives what can be seen of a program at a certain depth, and what it
leaves behind; `Machine.simulates_program` says that the machine takes the instructions of
a frame to just that, whatever frames lie below.
-/

namespace Labyrinth

/-- A player, and the cells of the strawberries picked up, in order. -/
structure Standing where
  /-- The player. -/
  player : Player
  /-- The cells of the strawberries picked up. -/
  taken : List Position
  deriving DecidableEq, Repr

/-- What a stretch of a program comes to. -/
structure Account where
  /-- What can be seen of it. -/
  marks : List Mark
  /-- What it leaves behind. -/
  standing : Standing
  /-- Whether it ran into a block that is too deep, and so was given up. -/
  tooDeep : Bool
  deriving DecidableEq, Repr

namespace Account

/-- Nothing happens. -/
def still (s : Standing) : Account := ⟨[], s, false⟩

/-- Only a pause is asked for. -/
def paused (s : Standing) : Account := ⟨[.pause], s, false⟩

/-- Goes on from what is left behind, unless the run was given up. -/
def andThen (a : Account) (next : Standing → Account) : Account :=
  if a.tooDeep then a
  else { next a.standing with marks := a.marks ++ (next a.standing).marks }

/-- The same stretch a number of times. -/
def rounds (stretch : Standing → Account) : Nat → Standing → Account
  | 0, s => still s
  | n + 1, s => (stretch s).andThen (rounds stretch n)

end Account

namespace Account

variable (maze : Maze) (maxDepth : Nat)

/-- What is told at the end of a run that comes to this: a run that was given up says why, and
one that was carried through says whether the goal was reached. -/
def closing (a : Account) : List Mark :=
  if a.tooDeep then
    [.event (.log ("Execution aborted: max depth " ++ toString maxDepth ++ " exceeded")),
      .event (.finished a.standing.player)]
  else if maze.goal = some a.standing.player.position then
    [.event (.reachedGoal a.standing.player.position), .event (.finished a.standing.player)]
  else [.event (.finished a.standing.player)]

/-- How a run ends that comes to this. -/
def ending (a : Account) : Ending :=
  if a.tooDeep then .tooDeep maxDepth
  else .completed (maze.goal = some a.standing.player.position)

end Account

namespace Meaning

open Account

/-- The rule of moves. A cell that cannot be entered stops the player; a strawberry not yet
picked up comes before a hazard on the same cell; a hazard takes a strawberry or, from a
player without one, the way made so far. -/
def move (maze : Maze) (d : Direction) (s : Standing) : Event × Standing :=
  let target := s.player.position.step d
  let there := { s.player with position := target }
  if maze.isWalkable target = false then (.step s.player.position s.player.strawberries, s)
  else if maze.isReward target ∧ target ∉ s.taken then
    let more := min (s.player.strawberries + 1) maxStrawberries
    (.collected target more, ⟨{ there with strawberries := more }, s.taken ++ [target]⟩)
  else if maze.isHazard target then
    if 0 < s.player.strawberries then
      let fewer := s.player.strawberries - 1
      (.lifeLost target fewer, ⟨{ there with strawberries := fewer }, s.taken⟩)
    else (.sentBack s.player.start, ⟨{ s.player with position := s.player.start }, s.taken⟩)
  else (.step target s.player.strawberries, ⟨there, s.taken⟩)

/-- A block that is entered: it must not be too deep, and leaving it asks for a pause. -/
def entered (maxDepth depth count : Nat) (body : Standing → Account) (s : Standing) : Account :=
  if maxDepth < depth then ⟨[], s, true⟩ else (rounds body count s).andThen paused

section

variable (maze : Maze) (maxDepth : Nat)

mutual

/-- What an instruction comes to at a certain depth. -/
def instruction : Instruction → Nat → Standing → Account
  | .move d, _, s =>
    let (e, s) := move maze d s
    ⟨[.event e, .pause], s, false⟩
  | .block (.times n) body, depth, s =>
    if n.toNat = 0 then paused s
    else entered maxDepth (depth + 1) n.toNat (program body (depth + 1)) s
  | .block (.atLeast n) body, depth, s =>
    if n.toNat ≤ s.player.strawberries then
      entered maxDepth (depth + 1) 1 (program body (depth + 1)) s
    else paused s
  | .block .untilGoal _, _, s | .block .whileHolding _, _, s | .block .function _, _, s
  | .call, _, s | .noop, _, s => still s

/-- What a program comes to at a certain depth. -/
def program : Program → Nat → Standing → Account
  | [], _, s => still s
  | i :: rest, depth, s => (instruction i depth s).andThen (program rest depth)

end

end

end Meaning

namespace Account

/-- Nothing is added by going on from a stretch in which nothing happens. -/
theorem still_andThen (s : Standing) (next : Standing → Account) :
    (still s).andThen next = next s := by
  simp [still, andThen]

theorem andThen_assoc (a : Account) (f g : Standing → Account) :
    (a.andThen f).andThen g = a.andThen (fun s => (f s).andThen g) := by
  by_cases ha : a.tooDeep = true
  · simp [andThen, ha]
  · by_cases hf : (f a.standing).tooDeep = true
    · simp [andThen, ha, hf]
    · simp [andThen, ha, hf, List.append_assoc]

end Account

/-- The standing of a walk. -/
def Walk.standing (w : Walk) : Standing := ⟨w.player, w.taken.toList⟩

/-- The machine keeps to the rule of moves. -/
theorem Walk.move_standing (w : Walk) (maze : Maze) (d : Direction) :
    Meaning.move maze d w.standing =
      ((w.landing maze d).event (w.after d (w.landing maze d)).player,
        (w.after d (w.landing maze d)).standing) := by
  unfold Meaning.move landing
  by_cases hw : maze.isWalkable (w.player.position.step d) = true
  · by_cases hr : maze.isReward (w.player.position.step d) = true ∧
        w.player.position.step d ∉ w.taken
    · have ht : w.player.position.step d ∉ w.taken.toList := hr.2
      simp [standing, hw, hr, ht, after, Landing.event, OrderedSet.toList_insert]
    · have ht : ¬ (maze.isReward (w.player.position.step d) = true ∧
        w.player.position.step d ∉ w.taken.toList) := hr
      by_cases hh : maze.isHazard (w.player.position.step d) = true
      · by_cases hn : 0 < w.player.strawberries
        · simp only [standing, hw, hr, ht, hh, hn, after, Landing.event]
          simp
        · simp only [standing, hw, hr, ht, hh, hn, after, Landing.event]
          simp
      · simp only [standing, hw, hr, ht, hh, after, Landing.event]
        simp
  · simp [standing, hw, after, Landing.event]

namespace Machine

/-- The standing of the player and the strawberries picked up. -/
def standing (m : Machine) : Standing := m.walk.standing

/-- A machine at a certain point of a run. -/
structure Poised (maze : Maze) (maxDepth : Nat) (s : Standing) (phase : Phase) (m : Machine) :
    Prop where
  /-- It runs on this maze. -/
  maze_eq : m.maze = maze
  /-- It has this limit of depth. -/
  maxDepth_eq : m.maxDepth = maxDepth
  /-- The player stands like this. -/
  standing_eq : m.standing = s
  /-- The run is in this phase. -/
  phase_eq : m.phase = phase

/-- The machine shows and leaves behind what an account says, and then either is in the next
phase or has given up and said so. -/
def Arrives (maze : Maze) (maxDepth : Nat) (a : Account) (next : Phase) (m : Machine) : Prop :=
  ∃ n, m.marks n = a.marks ++ (if a.tooDeep then a.closing maze maxDepth else []) ∧
    (m.after n).Poised maze maxDepth a.standing
      (if a.tooDeep then .over (.tooDeep maxDepth) else next)

section

variable {maze : Maze} {maxDepth : Nat} {s : Standing} {m : Machine}

/-- A machine that is there already arrives. -/
theorem arrives_still {next : Phase} (h : m.Poised maze maxDepth s next) :
    m.Arrives maze maxDepth (.still s) next :=
  ⟨0, rfl, h⟩

/-- One unit of work that shows some marks arrives with them. -/
theorem arrives_of_step {marks : List Mark} {next : Phase} (hm : m.step.1.marks = marks)
    (h : m.step.2.Poised maze maxDepth s next) :
    m.Arrives maze maxDepth ⟨marks, s, false⟩ next := by
  refine ⟨1, ?_, h⟩
  simp [Machine.marks, outputs, hm]

/-- A unit of work that shows nothing can be passed over. -/
theorem Arrives.of_silent_step {a : Account} {next : Phase} (hm : m.step.1.marks = [])
    (h : m.step.2.Arrives maze maxDepth a next) : m.Arrives maze maxDepth a next := by
  obtain ⟨n, hn, hp⟩ := h
  refine ⟨n + 1, ?_, hp⟩
  rw [← hn]
  simp [Machine.marks, outputs, hm]

/-- Arrivals follow one another. -/
theorem Arrives.andThen {a : Account} {f : Standing → Account} {mid next : Phase}
    (h : m.Arrives maze maxDepth a mid)
    (hf : ∀ m' : Machine, m'.Poised maze maxDepth a.standing mid →
      m'.Arrives maze maxDepth (f a.standing) next) :
    m.Arrives maze maxDepth (a.andThen f) next := by
  obtain ⟨n, hn, hp⟩ := h
  cases ha : a.tooDeep with
  | true =>
    refine ⟨n, ?_, ?_⟩
    · simpa [Account.andThen, ha] using hn
    · simpa [Account.andThen, ha] using hp
  | false =>
    simp only [ha, Bool.false_eq_true, if_false, List.append_nil] at hn hp
    obtain ⟨k, hk, hq⟩ := hf _ hp
    refine ⟨n + k, ?_, ?_⟩
    · rw [marks_add, hn, hk]
      simp only [Account.andThen, ha, Bool.false_eq_true, if_false, List.append_assoc]
      rfl
    · rw [after_add]
      simpa [Account.andThen, ha] using hq

end

end Machine

end Labyrinth
