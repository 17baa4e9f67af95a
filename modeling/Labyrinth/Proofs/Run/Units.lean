import Labyrinth.Proofs.Run.Course

/-!
# What a unit of work can be

A machine begins, makes a move, passes over an instruction, enters a block, gives up at one that is
too deep, starts another round, leaves a block, or finishes; and when it is over it does nothing.
`Machine.Does` gives for each of these when it happens, what it tells and the machine after it, and
`Machine.step_eq_iff` says that a unit of work is always just one of them. What a move comes to, and
when, is told apart by `Walk.Lands`.
-/

namespace Labyrinth

namespace Instruction

/-- An instruction that is passed over by a player with so many strawberries, and whether a pause is
asked for. -/
inductive Passes (held : Nat) : Instruction → Bool → Prop
  /-- A loop of no rounds. -/
  | noRounds {n : UInt32} (body : Program) (h : n.toNat = 0) :
    Passes held (.block (.times n) body) true
  /-- A condition that is not met. -/
  | unmet {n : UInt32} (body : Program) (h : held < n.toNat) :
    Passes held (.block (.atLeast n) body) true
  /-- An instruction that does nothing when it is run. -/
  | reserved {i : Instruction} (h : i.isReserved = true) : Passes held i false

/-- A block that is entered by a player with so many strawberries, the program inside it, and its
rounds after the first. -/
inductive Enters (held : Nat) : Instruction → Program → Nat → Prop
  /-- A loop. -/
  | loop {n : UInt32} {remaining : Nat} (body : Program) (h : n.toNat = remaining + 1) :
    Enters held (.block (.times n) body) body remaining
  /-- A condition that is met. -/
  | condition {n : UInt32} (body : Program) (h : n.toNat ≤ held) :
    Enters held (.block (.atLeast n) body) body 0

end Instruction

namespace Walk

/-- What a move can come to, and when it does. -/
inductive Lands (w : Walk) (m : Maze) (d : Direction) : Landing → Prop
  /-- The cell ahead cannot be entered. -/
  | blocked (h : m.isWalkable (w.player.position.step d) = false) : Lands w m d .blocked
  /-- A strawberry is picked up. -/
  | reward (walkable : m.isWalkable (w.player.position.step d) = true)
    (reward : m.isReward (w.player.position.step d) = true)
    (fresh : w.player.position.step d ∉ w.taken) : Lands w m d .reward
  /-- A hazard takes a strawberry. -/
  | lifeLost (walkable : m.isWalkable (w.player.position.step d) = true)
    (hazard : m.isHazard (w.player.position.step d) = true) (pos : 0 < w.player.strawberries) :
    Lands w m d .lifeLost
  /-- A hazard sends the player back. -/
  | sentBack (hazard : m.isHazard (w.player.position.step d) = true)
    (zero : w.player.strawberries = 0) : Lands w m d .sentBack
  /-- Nothing happens. -/
  | free (walkable : m.isWalkable (w.player.position.step d) = true) : Lands w m d .free

/-- A move comes to one of these. -/
theorem lands_landing (w : Walk) (m : Maze) (d : Direction) : w.Lands m d (w.landing m d) := by
  unfold landing
  dsimp only
  split
  next h => exact .blocked (Bool.eq_false_iff.mpr h)
  next h =>
    rw [Decidable.not_not] at h
    split
    next hr => exact .reward h hr.1 hr.2
    next =>
      split
      next hh =>
        split
        next hpos => exact .lifeLost h hh hpos
        next hzero => exact .sentBack hh (Nat.eq_zero_of_not_pos hzero)
      next => exact .free h

/-- A move picks up rewards of the maze only. -/
theorem Lands.rewards_after {w : Walk} {m : Maze} {d : Direction} {l : Landing}
    (h : w.Lands m d l) (hw : ∀ p ∈ w.taken, m.isReward p = true) :
    ∀ p ∈ (w.after d l).taken, m.isReward p = true := by
  cases h with
  | reward walkable reward fresh =>
    intro p hp
    rcases OrderedSet.mem_insert.mp hp with hold | rfl
    · exact hw p hold
    · exact reward
  | blocked | lifeLost | sentBack | free => exact hw

end Walk

namespace Machine

/-- The machine with one more unit of work counted. -/
def counted (m : Machine) : Machine := { m with tally := m.tally.countStep }

/-- The machine inside a block that it has entered. -/
def entered (m : Machine) (body : Program) (remaining : Nat) (top : Frame) (below : List Frame) :
    Machine :=
  { m with
    tally := m.tally.countDepth (top.depth + 1)
    phase := .running ⟨body, body, remaining, top.depth + 1, true⟩ (top :: below) }

/-- What a unit of work can be: what it tells, and the machine after it. -/
inductive Does (m : Machine) : Output × Machine → Prop
  /-- The run begins. -/
  | begin {p : Program} (h : m.phase = .fresh p) :
    Does m (⟨[.started m.player], false⟩, m.goOn ⟨p, p, 0, 0, false⟩ [])
  /-- A move is made. -/
  | move {top : Frame} {below : List Frame} {d : Direction} {rest : Program}
    (h : m.phase = .running top below) (hrest : top.rest = .move d :: rest) :
    Does m ((m.counted.goOn { top with rest := rest } below).move d)
  /-- An instruction is passed over. -/
  | pass {top : Frame} {below : List Frame} {i : Instruction} {rest : Program} {pace : Bool}
    (h : m.phase = .running top below) (hrest : top.rest = i :: rest)
    (hi : i.Passes m.player.strawberries pace) :
    Does m (⟨[], pace⟩, m.counted.goOn { top with rest := rest } below)
  /-- A block is entered. -/
  | enter {top : Frame} {below : List Frame} {i : Instruction} {rest body : Program}
    {remaining : Nat} (h : m.phase = .running top below) (hrest : top.rest = i :: rest)
    (hi : i.Enters m.player.strawberries body remaining) (hd : top.depth < m.maxDepth) :
    Does m (.silent, m.counted.entered body remaining { top with rest := rest } below)
  /-- A block is too deep. -/
  | giveUp {top : Frame} {below : List Frame} {i : Instruction} {rest body : Program}
    {remaining : Nat} (h : m.phase = .running top below) (hrest : top.rest = i :: rest)
    (hi : i.Enters m.player.strawberries body remaining) (hd : m.maxDepth ≤ top.depth) :
    Does m m.counted.giveUp
  /-- A block begins its next round. -/
  | rewind {top : Frame} {below : List Frame} {remaining : Nat}
    (h : m.phase = .running top below) (hrest : top.rest = [])
    (hr : top.remaining = remaining + 1) :
    Does m (.silent,
      m.counted.goOn { top with rest := top.body, remaining := remaining } below)
  /-- A block is left. -/
  | leave {top next : Frame} {below : List Frame} (h : m.phase = .running top (next :: below))
    (hrest : top.rest = []) (hr : top.remaining = 0) :
    Does m (⟨[], top.pace⟩, m.counted.goOn next below)
  /-- The run ends after the last instruction. -/
  | finish {top : Frame} (h : m.phase = .running top []) (hrest : top.rest = [])
    (hr : top.remaining = 0) : Does m (m.counted.finish top.pace)
  /-- The run is over. -/
  | idle (h : m.isOver = true) : Does m (.silent, m)

section

variable {m : Machine} {top : Frame} {below : List Frame}

theorem step_of_running (h : m.phase = .running top below) :
    m.step = m.counted.advance top below := by
  unfold step
  rw [h]
  rfl

theorem enter_of_lt {body : Program} {remaining : Nat} (h : top.depth < m.maxDepth) :
    m.enter body remaining top below = (.silent, m.entered body remaining top below) := by
  rw [enter, if_neg (by omega)]
  rfl

theorem enter_of_le {body : Program} {remaining : Nat} (h : m.maxDepth ≤ top.depth) :
    m.enter body remaining top below = m.giveUp := by
  rw [enter, if_pos (by omega)]

/-- A block is entered, or it is too deep. -/
theorem does_enter {i : Instruction} {rest body : Program} {remaining : Nat}
    (h : m.phase = .running top below) (hrest : top.rest = i :: rest)
    (hi : i.Enters m.player.strawberries body remaining) :
    m.Does (m.counted.enter body remaining { top with rest := rest } below) := by
  let next : Frame := { top with rest := rest }
  rcases Nat.lt_or_ge next.depth m.counted.maxDepth with hd | hd
  · rw [enter_of_lt hd]
    exact .enter h hrest hi hd
  · rw [enter_of_le hd]
    exact .giveUp h hrest hi hd

/-- Taking an instruction is a unit of work. -/
theorem does_dispatch {i : Instruction} {rest : Program} (h : m.phase = .running top below)
    (hrest : top.rest = i :: rest) :
    m.Does (m.counted.dispatch i { top with rest := rest } below) := by
  unfold dispatch
  split
  · exact .move h hrest
  · split
    next hn => exact .pass h hrest (.noRounds _ hn)
    next hn => exact does_enter h hrest (.loop _ (Nat.succ_pred hn).symm)
  · split
    next hn => exact does_enter h hrest (.condition _ hn)
    next hn => exact .pass h hrest (.unmet _ (Nat.lt_of_not_le hn))
  all_goals exact .pass h hrest (.reserved rfl)

/-- Every unit of work is one of those listed. -/
theorem does_step (m : Machine) : m.Does m.step := by
  match h : m.phase with
  | .fresh p =>
    have hstep : m.step = (⟨[.started m.player], false⟩, m.goOn ⟨p, p, 0, 0, false⟩ []) := by
      rw [step, h]
    rw [hstep]
    exact .begin h
  | .running top below =>
    rw [step_of_running h]
    unfold advance
    split
    next i rest hrest => exact does_dispatch h hrest
    next hrest =>
      split
      next hr => exact .rewind h hrest (Nat.succ_pred_eq_of_pos hr).symm
      next hr =>
        have hr : top.remaining = 0 := Nat.eq_zero_of_not_pos hr
        split
        · exact .leave h hrest hr
        · exact .finish h hrest hr
  | .over e =>
    have hover : m.isOver = true := by rw [isOver, ending?, h]; rfl
    rw [step_of_isOver hover]
    exact .idle hover

/-- An instruction that can be passed over is. -/
theorem dispatch_of_passes {i : Instruction} {pace : Bool}
    (hi : i.Passes m.player.strawberries pace) :
    m.dispatch i top below = (⟨[], pace⟩, m.goOn top below) := by
  cases hi with
  | noRounds body h => rw [dispatch, if_pos h]
  | unmet body h => rw [dispatch, if_neg (Nat.not_le_of_lt h)]
  | reserved h =>
    cases i with
    | block header body =>
      cases header with
      | times | atLeast => cases h
      | untilGoal | whileHolding | function => rfl
    | move d => cases h
    | call | noop => rfl

/-- A block that can be entered is, if it is not too deep. -/
theorem dispatch_of_enters {i : Instruction} {body : Program} {remaining : Nat}
    (hi : i.Enters m.player.strawberries body remaining) :
    m.dispatch i top below = m.enter body remaining top below := by
  cases hi with
  | loop body h => rw [dispatch, if_neg (by omega), h, Nat.add_sub_cancel]
  | condition body h => rw [dispatch, if_pos h]

/-- Of those listed no more than one can happen. -/
theorem Does.eq {r : Output × Machine} (hr : m.Does r) : m.step = r := by
  have htake {top : Frame} {below : List Frame} {i : Instruction} {rest : Program}
      (h : m.phase = .running top below) (hrest : top.rest = i :: rest) :
      m.step = m.counted.dispatch i { top with rest := rest } below := by
    rw [step_of_running h, advance.eq_def, hrest]
  cases hr with
  | begin h =>
    unfold step
    rw [h]
  | move h hrest => exact htake h hrest
  | pass h hrest hi => exact (htake h hrest).trans (dispatch_of_passes hi)
  | enter h hrest hi hd =>
    rw [htake h hrest, dispatch_of_enters (m := m.counted) hi]
    exact enter_of_lt hd
  | giveUp h hrest hi hd =>
    rw [htake h hrest, dispatch_of_enters (m := m.counted) hi]
    exact enter_of_le hd
  | rewind h hrest hr =>
    rw [step_of_running h, advance.eq_def, hrest]
    simp [hr, Output.silent]
  | leave h hrest hr =>
    rw [step_of_running h, advance.eq_def, hrest]
    simp [hr]
  | finish h hrest hr =>
    rw [step_of_running h, advance.eq_def, hrest]
    simp [hr]
  | idle h => exact step_of_isOver h

/-- A unit of work is just one of those listed. -/
theorem step_eq_iff {r : Output × Machine} : m.step = r ↔ m.Does r :=
  ⟨fun h => h ▸ m.does_step, Does.eq⟩

end

end Machine

end Labyrinth
