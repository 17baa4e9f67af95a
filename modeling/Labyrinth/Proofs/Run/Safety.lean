import Labyrinth.Proofs.Run.Recording

/-!
# The player stays safe on the way

A player who begins on a cell that can be entered, and is sent back to such a cell, stands on one at
any time of a run, and every event speaks of one. The strawberries picked up are rewards of the
maze, and what the player holds is what was held at first and picked up since, less what hazards
have taken. `Machine.Safe` is what every unit of work keeps; it needs that all the strawberries of
the maze, added to those held at first, can still be counted.
-/

namespace Labyrinth

/-- Both coordinates are 32-bit signed integers. -/
def Position.IsInt32 (p : Position) : Prop :=
  (-2147483648 ≤ p.x ∧ p.x ≤ 2147483647) ∧ (-2147483648 ≤ p.y ∧ p.y ≤ 2147483647)

/-- The neighbours of a cell that can be entered have coordinates, even those off the grid. -/
theorem Maze.isInt32_step {m : Maze} {p : Position} (h : m.isWalkable p = true) (d : Direction) :
    (p.step d).IsInt32 := by
  obtain ⟨hleft, hright, htop, hbottom⟩ := (of_decide_eq_true h).1
  have hwidth := m.valid.width_le
  have hheight := m.valid.height_le
  unfold maxSide at hwidth hheight
  cases d <;> simp only [Position.IsInt32, Position.step, Position.offset, Direction.delta] <;>
    omega

/-- Cells that are picked up as rewards are no more than the maze has. -/
theorem Maze.size_le_of_rewards {m : Maze} {s : OrderedSet Position}
    (h : ∀ p ∈ s, m.isReward p = true) : s.size ≤ m.layout.rewards.size :=
  s.nodup.length_le_of_subset fun p hp => of_decide_eq_true (h p hp)

namespace Machine

/-- A run on a maze by a player in which nothing has gone wrong, and what it has told so far. -/
structure Safe (maze : Maze) (player : Player) (told : List Event) (m : Machine) : Prop where
  /-- It is on this maze. -/
  maze_eq : m.maze = maze
  /-- The player stands on a cell that can be entered. -/
  walkable : maze.isWalkable m.player.position = true
  /-- The player is sent back to the same cell as at first. -/
  start_eq : m.player.start = player.start
  /-- What is picked up are rewards of the maze. -/
  rewards : ∀ p ∈ m.walk.taken, maze.isReward p = true
  /-- Every strawberry picked up was told of. -/
  collected_eq : m.walk.taken.size = told.countP Event.isCollected
  /-- What is held and what was taken by hazards is what was held at first and picked up. -/
  balance : m.player.strawberries + told.countP Event.isLifeLost =
    player.strawberries + told.countP Event.isCollected

section

variable {maze : Maze} {player : Player} {told : List Event} {m : Machine}

/-- Counting, turning to other frames, and telling of no move does no harm. -/
theorem Safe.of_still (h : m.Safe maze player told) (tally : Tally) (phase : Phase)
    {new : List Event} (hnew : ∀ e ∈ new, e.isMove = false) :
    ({ m with tally, phase } : Machine).Safe maze player (told ++ new) := by
  have hcollected := Event.countP_append_of_not_isMove told Event.isMove_of_isCollected hnew
  have hlost := Event.countP_append_of_not_isMove told Event.isMove_of_isLifeLost hnew
  refine ⟨h.maze_eq, h.walkable, h.start_eq, h.rewards, ?_, ?_⟩
  · rw [hcollected]
    exact h.collected_eq
  · rw [hcollected, hlost]
    exact h.balance

/-- A move does no harm. -/
theorem Safe.move (h : m.Safe maze player told) (hstart : maze.isWalkable player.start = true)
    (hfew : player.strawberries + maze.layout.rewards.size ≤ maxStrawberries) (d : Direction) :
    (m.move d).2.Safe maze player (told ++ (m.move d).1.events) := by
  obtain ⟨rfl, hwalkable, hback, hrewards, hcollected, hbalance⟩ := h
  have hlands := m.walk.lands_landing m.maze d
  unfold Machine.move
  dsimp only
  generalize m.walk.landing m.maze d = l at hlands ⊢
  have hrewards := hlands.rewards_after hrewards
  have hsize : (m.walk.after d l).taken.size =
      (told ++ [l.event (m.walk.after d l).player]).countP Event.isCollected := by
    rw [OrderedSet.size, hlands.taken_after, List.length_append, List.countP_append, ← hcollected]
    cases l <;> rfl
  cases hlands with
  | blocked =>
    refine ⟨rfl, hwalkable, hback, hrewards, hsize, ?_⟩
    rw [List.countP_append, List.countP_append]
    exact hbalance
  | free hnext =>
    refine ⟨rfl, hnext, hback, hrewards, hsize, ?_⟩
    rw [List.countP_append, List.countP_append]
    exact hbalance
  | reward hnext =>
    have hroom : (m.walk.after d .reward).taken.size ≤ m.maze.layout.rewards.size :=
      Maze.size_le_of_rewards hrewards
    refine ⟨rfl, hnext, hback, hrewards, hsize, ?_⟩
    rw [hsize] at hroom
    rw [List.countP_append] at hroom ⊢
    rw [List.countP_append]
    -- The count does not reach its bound, so nothing is lost to it.
    change told.countP Event.isCollected + 1 ≤ _ at hroom
    change min (m.player.strawberries + 1) maxStrawberries + told.countP Event.isLifeLost =
      player.strawberries + (told.countP Event.isCollected + 1)
    omega
  | lifeLost hnext hhazard hpos =>
    refine ⟨rfl, hnext, hback, hrewards, hsize, ?_⟩
    rw [List.countP_append, List.countP_append]
    change m.player.strawberries - 1 + (told.countP Event.isLifeLost + 1) =
      player.strawberries + told.countP Event.isCollected
    have hpos : 0 < m.player.strawberries := hpos
    omega
  | sentBack =>
    refine ⟨rfl, ?_, hback, hrewards, hsize, ?_⟩
    · change m.maze.isWalkable m.player.start = true
      rw [hback]
      exact hstart
    · rw [List.countP_append, List.countP_append]
      exact hbalance

/-- A unit of work does no harm. -/
theorem Safe.step (h : m.Safe maze player told) (hstart : maze.isWalkable player.start = true)
    (hfew : player.strawberries + maze.layout.rewards.size ≤ maxStrawberries) :
    m.step.2.Safe maze player (told ++ m.step.1.events) := by
  have hdone := m.does_step
  generalize m.step = done at hdone ⊢
  cases hdone with
  | @move top below d rest =>
    have hcounted :
        (m.counted.goOn { top with rest := rest } below).Safe maze player (told ++ []) :=
      h.of_still _ _ (List.forall_mem_nil _)
    rw [List.append_nil] at hcounted
    exact hcounted.move hstart hfew d
  | begin => exact h.of_still _ _ (by simp [Event.isMove])
  | giveUp => exact h.of_still _ _ (by simp [giveUp, Event.isMove])
  | finish => exact h.of_still _ _ fun e he => not_isMove_of_mem_finish he
  | pass | enter | rewind | leave | idle => exact h.of_still _ _ (List.forall_mem_nil _)

/-- Every event speaks of the cell where the player stands after the unit of work that tells it. -/
theorem position_of_mem_step {e : Event} (he : e ∈ m.step.1.events) :
    ∀ p ∈ e.position?, p = m.step.2.player.position := by
  have hdone := m.does_step
  generalize m.step = done at hdone he ⊢
  cases hdone with
  | begin =>
    obtain rfl := List.mem_singleton.mp he
    simp [Event.position?, goOn, player]
  | move =>
    obtain rfl := List.mem_singleton.mp he
    dsimp only [Machine.move, player]
    generalize Walk.landing _ _ _ = l
    cases l <;> simp [Landing.event, Event.position?]
  | pass | enter | rewind | leave | idle => cases he
  | giveUp =>
    simp only [giveUp, List.mem_cons, List.not_mem_nil, or_false] at he
    rcases he with rfl | rfl <;> simp [Event.position?, giveUp, player]
  | finish =>
    simp only [finish, List.mem_append, List.mem_singleton] at he
    rcases he with he | rfl
    · split at he
      · obtain rfl := List.mem_singleton.mp he
        simp [Event.position?, finish, player]
      · cases he
    · simp [Event.position?, finish, player]

/-- A unit of work that tells of a player sent back tells of nothing else, and nothing was held. -/
theorem events_of_sentBack_mem_step {p : Position} (he : .sentBack p ∈ m.step.1.events) :
    m.step.1.events = [.sentBack p] ∧ m.player.strawberries = 0 := by
  have hdone := m.does_step
  generalize m.step = done at hdone he ⊢
  cases hdone with
  | @move top below d rest =>
    have hlands := m.walk.lands_landing m.maze d
    have he := (List.mem_singleton.mp he).symm
    refine ⟨congrArg (fun e => [e]) he, ?_⟩
    change (m.walk.landing m.maze d).event _ = _ at he
    generalize m.walk.landing m.maze d = l at hlands he
    cases hlands with
    | sentBack hhazard hzero => exact hzero
    | blocked | reward | lifeLost | free => cases he
  | begin | pass | enter | giveUp | rewind | leave | idle => simp [giveUp, Output.silent] at he
  | finish => simp [finish] at he

/-- At any time of a run nothing has gone wrong, and every event so far spoke of a cell that can be
entered. -/
theorem Safe.after (h : m.Safe maze player []) (hstart : maze.isWalkable player.start = true)
    (hfew : player.strawberries + maze.layout.rewards.size ≤ maxStrawberries) (n : Nat) :
    (m.after n).Safe maze player (m.events n) ∧
      ∀ e ∈ m.events n, ∀ p ∈ e.position?, maze.isWalkable p = true := by
  refine run_induction (motive := fun told m => m.Safe maze player told ∧
    ∀ e ∈ told, ∀ p ∈ e.position?, maze.isWalkable p = true) ⟨h, nofun⟩ ?_ n
  rintro told m ⟨hsafe, htold⟩
  have hnext := hsafe.step hstart hfew
  refine ⟨hnext, fun e he p hp => ?_⟩
  rcases List.mem_append.mp he with he | he
  · exact htold e he p hp
  · rw [position_of_mem_step he p hp]
    exact hnext.walkable

/-- Whenever an event tells of a player sent back, the events before it tell of one who holds
nothing. -/
theorem held_of_sentBack {before later : List Event} {p : Position} {n : Nat}
    (h : m.events n = before ++ .sentBack p :: later) :
    (m.player.hearAll before).strawberries = 0 := by
  induction n generalizing later with
  | zero => simp [events, outputs] at h
  | succ n ih =>
    rw [events_succ] at h
    -- A unit of work that tells of it tells of nothing else, so the events before are all so far.
    have hlast (hmem : .sentBack p ∈ (m.after n).step.1.events) (hbefore : before = m.events n) :
        (m.player.hearAll before).strawberries = 0 := by
      rw [hbefore, (Records.after m n).player_eq]
      exact (events_of_sentBack_mem_step hmem).2
    rcases List.append_eq_append_iff.mp h with ⟨part, hbefore, hnew⟩ | ⟨part, hold, hnew⟩
    · have hmem : .sentBack p ∈ (m.after n).step.1.events := by simp [hnew]
      have hone := (events_of_sentBack_mem_step hmem).1
      rw [hnew] at hone
      cases part with
      | nil => exact hlast hmem (by simpa using hbefore)
      | cons e part => simp at hone
    · cases part with
      | nil =>
        rw [List.nil_append] at hnew
        exact hlast (hnew ▸ List.mem_cons_self) (by simpa using hold.symm)
      | cons e part =>
        obtain ⟨rfl, -⟩ := List.cons.inj hnew
        exact ih hold

end

/-- A player stands on a cell that can be entered, is sent back to such a cell, and could count all
the strawberries of the maze in addition to those held. Then at any time of any run the player
stands on a cell that can be entered, so that every neighbour of it has coordinates, and every event
so far spoke of such a cell; the player is sent back to the same cell as ever; the cells picked up
are different rewards of the maze, as many as are counted; what is held is what was held at first
and picked up, less what hazards have taken, which was never more; and whenever the player was sent
back, nothing was held. -/
theorem player_stays_safe (program : Program) (maze : Maze) (player : Player) (maxDepth : Nat)
    (hposition : maze.isWalkable player.position = true)
    (hstart : maze.isWalkable player.start = true)
    (hfew : player.strawberries + maze.layout.rewards.size ≤ maxStrawberries) (n : Nat) :
    let m := (start program maze player maxDepth).after n
    let told := (start program maze player maxDepth).events n
    maze.isWalkable m.player.position = true ∧
      (∀ e ∈ told, ∀ p ∈ e.position?, maze.isWalkable p = true) ∧
      (∀ d, (m.player.position.step d).IsInt32) ∧
      m.player.start = player.start ∧
      m.walk.taken.toList.Nodup ∧ m.walk.taken.toList ⊆ maze.layout.rewards.toList ∧
      m.walk.taken.toList.length = m.tally.collected.toNat ∧
      told.countP Event.isLifeLost ≤ player.strawberries + told.countP Event.isCollected ∧
      m.player.strawberries =
        player.strawberries + told.countP Event.isCollected - told.countP Event.isLifeLost ∧
      ∀ before p later, told = before ++ .sentBack p :: later →
        (player.hearAll before).strawberries = 0 := by
  intro m told
  have hbegun : (start program maze player maxDepth).Safe maze player [] :=
    ⟨rfl, hposition, rfl, nofun, rfl, rfl⟩
  obtain ⟨hsafe, htold⟩ : m.Safe maze player told ∧
      ∀ e ∈ told, ∀ p ∈ e.position?, maze.isWalkable p = true := hbegun.after hstart hfew n
  have hcounted : m.tally.collected = UInt32.ofNat (told.countP Event.isCollected) :=
    (counted_after program maze player maxDepth n).2.1
  have hback : ∀ before p later, told = before ++ .sentBack p :: later →
      (player.hearAll before).strawberries = 0 := fun _ _ _ => held_of_sentBack
  clear_value m told
  have hsize := hsafe.collected_eq
  have hroom := Maze.size_le_of_rewards hsafe.rewards
  have hbalance := hsafe.balance
  refine ⟨hsafe.walkable, htold, Maze.isInt32_step hsafe.walkable, hsafe.start_eq,
    m.walk.taken.nodup, fun p hp => of_decide_eq_true (hsafe.rewards p hp), ?_, ?_, ?_, hback⟩
  · -- There are no more rewards than can be counted, so the counter has not begun again.
    unfold maxStrawberries at hfew
    rw [hcounted, ← hsize, UInt32.toNat_ofNat', Nat.mod_eq_of_lt (by omega)]
    rfl
  · omega
  · omega

/-- A strawberry is picked up on a cell with a hazard, taken on the start by another, and then the
hazard on the first cell sends the player back. -/
theorem player_stays_safe_on_hazards :
    let edits : List LayoutEdit := [.rewards [⟨1, 0⟩], .hazards [⟨0, 0⟩, ⟨1, 0⟩]]
    let maze : Maze := ⟨(Layout.blank 2 1).editAll edits, Layout.fault?_eq_none_iff.mp (by decide)⟩
    let player := Player.atStart ⟨0, 0⟩
    let program : Program := [.move .right, .move .left, .move .up, .move .right]
    maze.isWalkable player.position = true ∧ maze.isWalkable player.start = true ∧
      player.strawberries + maze.layout.rewards.size ≤ maxStrawberries ∧
      (start program maze player 1).events 5 =
        [.started player, .collected ⟨1, 0⟩ 1, .lifeLost ⟨0, 0⟩ 0, .step ⟨0, 0⟩ 0,
          .sentBack ⟨0, 0⟩] ∧
      ((start program maze player 1).after 5).walk.taken.toList.length = 1 ∧
      ((start program maze player 1).after 5).player.strawberries = 0 + 1 - 1 ∧
      (player.hearAll [.started player, .collected ⟨1, 0⟩ 1, .lifeLost ⟨0, 0⟩ 0,
        .step ⟨0, 0⟩ 0]).strawberries = 0 := by
  intro edits maze player program
  have hposition : maze.isWalkable player.position = true := by decide
  have hfew : player.strawberries + maze.layout.rewards.size ≤ maxStrawberries := by
    decide +kernel
  have htold : (start program maze player 1).events 5 =
      [.started player, .collected ⟨1, 0⟩ 1, .lifeLost ⟨0, 0⟩ 0, .step ⟨0, 0⟩ 0,
        .sentBack ⟨0, 0⟩] := by decide +kernel
  have hcollected : ((start program maze player 1).after 5).tally.collected = 1 := by
    decide +kernel
  obtain ⟨-, -, -, -, -, -, hlength, -, hheld, hback⟩ :=
    player_stays_safe program maze player 1 hposition hposition hfew 5
  rw [hcollected] at hlength
  rw [htold] at hheld
  exact ⟨hposition, hposition, hfew, htold, hlength, hheld, hback _ _ [] htold⟩

end Machine

end Labyrinth
