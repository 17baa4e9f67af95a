import Labyrinth.Proofs.Run.Stages
import Labyrinth.Run.Session

/-!
# Going on where a run ended

The run of two programs in a row and the run of the first go side by side up to the end of the
first. From there on the rest is like a run of the second program by the player who is left, on the
maze without the rewards picked up: in both a reward can be had exactly if it was never taken.
`Machine.Mirrors` is the relation of a run to such a part of it, and `Mirrors.step` says that every
unit of work keeps it.
-/

namespace Labyrinth

namespace Maze

/-- The second maze is the first without the rewards of some cells. -/
structure Without (m : Maze) (ps : List Position) (n : Maze) : Prop where
  /-- Nothing but the rewards may differ. -/
  layout_eq : n.layout = { m.layout with rewards := n.layout.rewards }
  /-- The other rewards are left, in the order in which they were. -/
  rewards_eq : n.layout.rewards.toList = m.layout.rewards.toList.filter (· ∉ ps)

theorem Without.refl (m : Maze) : m.Without [] m where
  layout_eq := rfl
  rewards_eq := (List.filter_eq_self.mpr (by simp)).symm

theorem Without.trans {m n k : Maze} {ps qs : List Position} (h : m.Without ps n)
    (h' : n.Without qs k) : m.Without (ps ++ qs) k where
  layout_eq := by rw [h'.layout_eq, h.layout_eq]
  rewards_eq := by
    rw [h'.rewards_eq, h.rewards_eq, List.filter_filter]
    exact List.filter_congr fun p _ => by simp [Bool.and_comm]

theorem without_withoutReward (m : Maze) (p : Position) : m.Without [p] (m.withoutReward p) where
  layout_eq := rfl
  rewards_eq := by
    rw [withoutReward, OrderedSet.toList_erase, m.layout.rewards.nodup.erase_eq_filter]
    exact List.filter_congr fun q _ => by by_cases h : q = p <;> simp [h]

/-- Taking rewards away changes the set of rewards and nothing else. -/
theorem without_withoutRewards (m : Maze) (ps : List Position) :
    m.Without ps (m.withoutRewards ps) := by
  induction ps generalizing m with
  | nil => exact .refl m
  | cons p ps ih => exact (m.without_withoutReward p).trans (ih (m.withoutReward p))

variable (m : Maze) (ps : List Position) (p : Position)

@[simp] theorem isWalkable_withoutRewards :
    (m.withoutRewards ps).isWalkable p = m.isWalkable p := by
  rw [isWalkable, (m.without_withoutRewards ps).layout_eq]
  rfl

@[simp] theorem isHazard_withoutRewards :
    (m.withoutRewards ps).isHazard p = m.isHazard p := by
  rw [isHazard, (m.without_withoutRewards ps).layout_eq]
  rfl

@[simp] theorem goal_withoutRewards : (m.withoutRewards ps).goal = m.goal := by
  rw [goal, (m.without_withoutRewards ps).layout_eq]
  rfl

/-- A reward is left where there was one that is not taken away. -/
theorem isReward_withoutRewards :
    (m.withoutRewards ps).isReward p = true ↔ m.isReward p = true ∧ p ∉ ps := by
  simp only [isReward, decide_eq_true_eq, OrderedSet.mem_def,
    (m.without_withoutRewards ps).rewards_eq, List.mem_filter]

end Maze

namespace Tally

/-- The counts of a run and of another that goes on from it. Where a sum is too great for its
counter it begins again at zero, as the counter does. -/
def plus (t u : Tally) : Tally where
  steps := t.steps + u.steps
  moves := t.moves + u.moves
  blockedMoves := t.blockedMoves + u.blockedMoves
  collected := t.collected + u.collected
  livesLost := t.livesLost + u.livesLost
  resets := t.resets + u.resets
  deepest := max t.deepest u.deepest

variable (t u : Tally)

@[simp] theorem plus_zero : t.plus .zero = t := by simp [plus, zero]

@[simp] theorem zero_plus : Tally.zero.plus t = t := by simp [plus, zero]

theorem plus_countStep : t.plus u.countStep = (t.plus u).countStep := by
  simp [plus, countStep, UInt64.add_assoc]

theorem countStep_plus : t.countStep.plus u = (t.plus u).countStep := by
  simp only [plus, countStep]
  rw [UInt64.add_assoc, UInt64.add_comm 1, ← UInt64.add_assoc]

theorem plus_countDepth (depth : Nat) :
    t.plus (u.countDepth depth) = (t.plus u).countDepth depth := by
  simp [plus, countDepth, Nat.max_assoc]

theorem plus_countMove (l : Landing) : t.plus (u.countMove l) = (t.plus u).countMove l := by
  cases l <;> simp [plus, countMove, UInt64.add_assoc, UInt32.add_assoc]

end Tally

namespace Walk

variable {v w : Walk} {taken : List Position}

/-- A move comes to the same where the rewards are gone that were taken before. -/
theorem landing_withoutRewards (maze : Maze) (d : Direction) (hplayer : v.player = w.player)
    (htaken : v.taken.toList = taken ++ w.taken.toList) :
    w.landing (maze.withoutRewards taken) d = v.landing maze d := by
  have hreward (p : Position) :
      (maze.withoutRewards taken).isReward p = true ∧ p ∉ w.taken ↔
        maze.isReward p = true ∧ p ∉ v.taken := by
    rw [Maze.isReward_withoutRewards, OrderedSet.mem_def, OrderedSet.mem_def, htaken,
      List.mem_append, not_or, and_assoc]
  simp only [landing, hplayer, hreward, Maze.isWalkable_withoutRewards,
    Maze.isHazard_withoutRewards]

/-- A reward that a move comes to has not been taken. -/
theorem not_mem_taken_of_landing {maze : Maze} {d : Direction}
    (h : w.landing maze d = .reward) : w.player.position.step d ∉ w.taken := by
  have hlands := w.lands_landing maze d
  rw [h] at hlands
  cases hlands with
  | reward walkable reward fresh => exact fresh

/-- What is picked up later comes after what was picked up before. -/
theorem taken_after (hplayer : v.player = w.player)
    (htaken : v.taken.toList = taken ++ w.taken.toList) (d : Direction) {l : Landing}
    (hl : l = .reward → v.player.position.step d ∉ v.taken) :
    (v.after d l).taken.toList = taken ++ (w.after d l).taken.toList := by
  cases l with
  | reward =>
    have hnew := hl rfl
    rw [OrderedSet.mem_def, htaken, List.mem_append, not_or] at hnew
    rw [after, after, ← hplayer, OrderedSet.toList_insert, OrderedSet.toList_insert, htaken]
    rw [if_neg (by simpa using hnew), if_neg hnew.2, List.append_assoc]
  | blocked | free | lifeLost | sentBack => exact htaken

theorem player_after (hplayer : v.player = w.player) (d : Direction) (l : Landing) :
    (v.after d l).player = (w.after d l).player := by
  cases l <;> simp only [after, hplayer]

end Walk

/-- The frames on the left are those on the right with a program to run after the outermost. -/
inductive Frame.Extends (q : Program) : Frame → List Frame → Frame → List Frame → Prop
  /-- The outermost frame, which has one round. -/
  | outermost (body body' rest : Program) :
    Extends q ⟨body, rest ++ q, 0, 0, false⟩ [] ⟨body', rest, 0, 0, false⟩ []
  /-- A frame inside others, the same on both sides. -/
  | inner (f : Frame) {g g' : Frame} {gs gs' : List Frame} (h : Extends q g gs g' gs') :
    Extends q f (g :: gs) f (g' :: gs')

namespace Frame.Extends

variable {q : Program} {top top' : Frame} {below below' : List Frame}

theorem depth_eq (h : Extends q top below top' below') : top.depth = top'.depth := by
  cases h <;> rfl

/-- Both sides take the same instruction. -/
theorem take {i : Instruction} {rest' : Program} (h : Extends q top below top' below')
    (hrest : top'.rest = i :: rest') :
    ∃ rest, top.rest = i :: rest ∧
      Extends q { top with rest := rest } below { top' with rest := rest' } below' := by
  cases h with
  | outermost body body' =>
    cases hrest
    exact ⟨rest' ++ q, rfl, .outermost body body' rest'⟩
  | inner f h => exact ⟨rest', hrest, .inner _ h⟩

/-- Both sides begin the same round. -/
theorem rewind {remaining : Nat} (h : Extends q top below top' below')
    (hr : top'.remaining = remaining + 1) :
    top = top' ∧
      Extends q { top with rest := top.body, remaining := remaining } below
        { top' with rest := top'.body, remaining := remaining } below' := by
  cases h with
  | outermost => cases hr
  | inner f h => exact ⟨rfl, .inner _ h⟩

/-- Both sides leave the same block. -/
theorem leave {next' : Frame} (h : Extends q top below top' (next' :: below')) :
    ∃ next gs, below = next :: gs ∧ top = top' ∧ Extends q next gs next' below' := by
  cases h with
  | inner f h => exact ⟨_, _, rfl, rfl, h⟩

/-- Where the right side is done, the left side has the program left that follows. -/
theorem done (h : Extends q top below top' []) (hrest : top'.rest = []) :
    below = [] ∧ top = ⟨top.body, q, 0, 0, false⟩ ∧ top'.pace = false := by
  cases h with
  | outermost body body' =>
    cases hrest
    exact ⟨rfl, rfl, rfl⟩

end Frame.Extends

/-- The phase on the left is the one on the right with a program to run afterwards. -/
inductive Phase.Extends (q : Program) : Phase → Phase → Prop
  /-- Not begun. -/
  | fresh (p : Program) : Extends q (.fresh (p ++ q)) (.fresh p)
  /-- Under way. -/
  | running {top top' : Frame} {below below' : List Frame}
    (h : Frame.Extends q top below top' below') :
    Extends q (.running top below) (.running top' below')
  /-- Over. -/
  | over (e : Ending) : Extends q (.over e) (.over e)

namespace Machine

/-- The run `m` does what the run `n` does, and then goes on with `q`. Before that it has taken some
rewards, which `n` does not find in its maze, and counted something. -/
structure Mirrors (taken : List Position) (before : Tally) (q : Program) (m n : Machine) :
    Prop where
  /-- The mazes are the same but for those rewards. -/
  maze_eq : n.maze = m.maze.withoutRewards taken
  /-- The limits of depth are the same. -/
  maxDepth_eq : n.maxDepth = m.maxDepth
  /-- The players are the same. -/
  player_eq : m.walk.player = n.walk.player
  /-- The rewards that `n` has picked up come after those taken before. -/
  taken_eq : m.walk.taken.toList = taken ++ n.walk.taken.toList
  /-- The counts of `n` come on top of those before. -/
  tally_eq : m.tally = before.plus n.tally
  /-- The frames of `m` are those of `n`, and `q` after them. -/
  phase : Phase.Extends q m.phase n.phase

namespace Mirrors

variable {taken : List Position} {before : Tally} {q : Program} {m n : Machine}
  {top top' : Frame} {below below' : List Frame}

theorem running (h : Mirrors taken before q m n) (hn : n.phase = .running top' below') :
    ∃ top below, m.phase = .running top below ∧ Frame.Extends q top below top' below' := by
  have hphase := h.phase
  rw [hn] at hphase
  generalize hm : m.phase = phase at hphase
  cases hphase with
  | running hf => exact ⟨_, _, rfl, hf⟩

theorem fresh {p : Program} (h : Mirrors taken before q m n) (hn : n.phase = .fresh p) :
    m.phase = .fresh (p ++ q) := by
  have hphase := h.phase
  rw [hn] at hphase
  generalize m.phase = phase at hphase ⊢
  cases hphase with
  | fresh => rfl

/-- One run is over when the other is, and they end alike. -/
theorem ending?_eq (h : Mirrors taken before q m n) : m.ending? = n.ending? := by
  have hphase := h.phase
  unfold ending?
  generalize m.phase = left at hphase ⊢
  generalize n.phase = right at hphase ⊢
  cases hphase <;> rfl

/-- Both runs turn to other frames. -/
theorem goOn (h : Mirrors taken before q m n) (hf : Frame.Extends q top below top' below') :
    Mirrors taken before q (m.goOn top below) (n.goOn top' below') :=
  { h with phase := .running hf }

/-- Both runs count a unit of work. -/
theorem counted (h : Mirrors taken before q m n) :
    Mirrors taken before q m.counted n.counted :=
  { h with
    tally_eq := by rw [Machine.counted, Machine.counted, Tally.plus_countStep, h.tally_eq] }

/-- Both runs enter a block. -/
theorem entered (h : Mirrors taken before q m n) (hf : Frame.Extends q top below top' below')
    (body : Program) (remaining : Nat) :
    Mirrors taken before q (m.entered body remaining top below)
      (n.entered body remaining top' below') where
  maze_eq := h.maze_eq
  maxDepth_eq := h.maxDepth_eq
  player_eq := h.player_eq
  taken_eq := h.taken_eq
  tally_eq := by
    rw [Machine.entered, Machine.entered, Tally.plus_countDepth, h.tally_eq, hf.depth_eq]
  phase := by
    rw [Machine.entered, Machine.entered, hf.depth_eq]
    exact .running (.inner _ hf)

/-- Both runs make the same move. -/
theorem move (h : Mirrors taken before q m n) (d : Direction) :
    (m.move d).1 = (n.move d).1 ∧ Mirrors taken before q (m.move d).2 (n.move d).2 := by
  have hlanding : n.walk.landing n.maze d = m.walk.landing m.maze d := by
    rw [h.maze_eq]
    exact Walk.landing_withoutRewards m.maze d h.player_eq h.taken_eq
  have hplayer := Walk.player_after h.player_eq d (m.walk.landing m.maze d)
  refine ⟨?_, h.maze_eq, h.maxDepth_eq, ?_, ?_, ?_, h.phase⟩
  · simp only [Machine.move, hlanding, hplayer]
  · simp only [Machine.move, hlanding, hplayer]
  · simp only [Machine.move, hlanding]
    exact Walk.taken_after h.player_eq h.taken_eq d Walk.not_mem_taken_of_landing
  · simp only [Machine.move, hlanding, Tally.plus_countMove, h.tally_eq]

/-- Both runs give up. -/
theorem giveUp (h : Mirrors taken before q m n) :
    m.giveUp.1 = n.giveUp.1 ∧ Mirrors taken before q m.giveUp.2 n.giveUp.2 := by
  refine ⟨?_, { h with phase := ?_ }⟩
  · simp only [Machine.giveUp, player, h.player_eq, h.maxDepth_eq]
  · simp only [Machine.giveUp, h.maxDepth_eq]
    exact .over _

/-- Both runs end. -/
theorem finish (h : Mirrors taken before q m n) (pace : Bool) :
    (m.finish pace).1 = (n.finish pace).1 ∧
      Mirrors taken before q (m.finish pace).2 (n.finish pace).2 := by
  have hgoal : n.maze.goal = m.maze.goal := by rw [h.maze_eq, Maze.goal_withoutRewards]
  refine ⟨?_, { h with phase := ?_ }⟩
  · simp only [Machine.finish, player, h.player_eq, hgoal]
  · simp only [Machine.finish, player, h.player_eq, hgoal]
    exact .over _

/-- Every unit of work tells the same in both runs and keeps them alike, up to where the part is
done and the whole goes on. -/
theorem step (h : Mirrors taken before q m n) (hend : n.AtEnd → q = []) :
    m.step.1 = n.step.1 ∧ Mirrors taken before q m.step.2 n.step.2 := by
  have hheld : m.player.strawberries = n.player.strawberries :=
    congrArg Player.strawberries h.player_eq
  -- By what `n` does: it knows no program to follow, so its unit of work decides that of `m`.
  have hdone := n.does_step
  generalize n.step = done at hdone ⊢
  cases hdone with
  | begin hn =>
    rw [(Does.begin (h.fresh hn)).eq, player, player, h.player_eq]
    exact ⟨rfl, h.goOn (.outermost _ _ _)⟩
  | move hn hrest =>
    obtain ⟨top, below, hm, hf⟩ := h.running hn
    obtain ⟨rest, htop, hf⟩ := hf.take hrest
    rw [(Does.move hm htop).eq]
    exact (h.counted.goOn hf).move _
  | pass hn hrest hi =>
    obtain ⟨top, below, hm, hf⟩ := h.running hn
    obtain ⟨rest, htop, hf⟩ := hf.take hrest
    rw [(Does.pass hm htop (hheld ▸ hi)).eq]
    exact ⟨rfl, h.counted.goOn hf⟩
  | enter hn hrest hi hd =>
    obtain ⟨top, below, hm, hf⟩ := h.running hn
    obtain ⟨rest, htop, hf'⟩ := hf.take hrest
    rw [← hf.depth_eq, h.maxDepth_eq] at hd
    rw [(Does.enter hm htop (hheld ▸ hi) hd).eq]
    exact ⟨rfl, h.counted.entered hf' _ _⟩
  | giveUp hn hrest hi hd =>
    obtain ⟨top, below, hm, hf⟩ := h.running hn
    obtain ⟨rest, htop, -⟩ := hf.take hrest
    rw [← hf.depth_eq, h.maxDepth_eq] at hd
    rw [(Does.giveUp hm htop (hheld ▸ hi) hd).eq]
    exact h.counted.giveUp
  | rewind hn hrest hr =>
    obtain ⟨top, below, hm, hf⟩ := h.running hn
    obtain ⟨rfl, hf'⟩ := hf.rewind hr
    rw [(Does.rewind hm hrest hr).eq]
    exact ⟨rfl, h.counted.goOn hf'⟩
  | leave hn hrest hr =>
    obtain ⟨top, below, hm, hf⟩ := h.running hn
    obtain ⟨next, gs, rfl, rfl, hf'⟩ := hf.leave
    rw [(Does.leave hm hrest hr).eq]
    exact ⟨rfl, h.counted.goOn hf'⟩
  | finish hn hrest hr =>
    obtain rfl := hend ⟨_, hn, hrest, hr⟩
    obtain ⟨top, below, hm, hf⟩ := h.running hn
    obtain ⟨rfl, htop, hpace⟩ := hf.done hrest
    rw [htop] at hm
    rw [(Does.finish hm rfl rfl).eq, hpace]
    exact h.counted.finish false
  | idle hn =>
    have hm : m.isOver = true := by rwa [isOver, h.ending?_eq]
    rw [step_of_isOver hm]
    exact ⟨rfl, h⟩

/-- The runs tell the same and stay alike for as long as the part is not done. -/
theorem after (h : Mirrors taken before q m n) {k : Nat}
    (hend : ∀ j < k, (n.after j).AtEnd → q = []) :
    m.events k = n.events k ∧ Mirrors taken before q (m.after k) (n.after k) := by
  induction k with
  | zero => exact ⟨rfl, h⟩
  | succ k ih =>
    obtain ⟨hevents, hk⟩ := ih fun j hj => hend j (Nat.lt_succ_of_lt hj)
    obtain ⟨htold, hnext⟩ := hk.step (hend k (Nat.lt_succ_self k))
    rw [events_succ, events_succ, hevents, htold, after_succ, after_succ]
    exact ⟨rfl, hnext⟩

/-- With nothing to follow, the runs tell the same and are alike to the end. -/
theorem last (h : Mirrors taken before [] m n) :
    m.stream = n.stream ∧ Mirrors taken before [] m.last n.last := by
  have hall (k : Nat) := h.after (k := k) fun _ _ _ => rfl
  obtain ⟨hevents, hlast⟩ := hall (m.work + n.work)
  have hm : (m.after (m.work + n.work)).isOver = true := isOver_after_of_work_le (by omega)
  have hn : (n.after (m.work + n.work)).isOver = true := isOver_after_of_work_le (by omega)
  rw [last_of_isOver_after hm, last_of_isOver_after hn] at hlast
  rw [stream_of_isOver_after hm, stream_of_isOver_after hn] at hevents
  exact ⟨hevents, hlast⟩

end Mirrors

/-- A run that does what a first run and then a second run do. -/
structure Continues (whole first second : Machine) : Prop where
  /-- It tells of its beginning, of the moves of the first run, and then all that the second tells
  after its beginning. -/
  stream_eq : whole.stream =
    .started first.player :: (first.stream.filter Event.isMove ++ second.stream.tail)
  /-- It ends as the second run does. -/
  ending_eq : whole.last.ending? = second.last.ending?
  /-- It leaves the player of the second run. -/
  player_eq : whole.last.player = second.last.player
  /-- It picks up the strawberries of the first run and then those of the second. -/
  taken_eq : whole.last.walk.taken.toList =
    first.last.walk.taken.toList ++ second.last.walk.taken.toList
  /-- It counts what both count, save the unit of work that ends the first run. -/
  tally_eq : whole.last.tally.countStep = first.last.tally.plus second.last.tally

/-- Where the first program is done, the whole run is a run of the second by the player who is left,
on the maze without the rewards picked up. -/
theorem Mirrors.second {q : Program} {m n : Machine} (h : Mirrors [] .zero q m n) (hend : n.AtEnd) :
    Mirrors n.walk.taken.toList n.tally []
      m (start q (m.maze.withoutRewards n.walk.taken.toList) n.player m.maxDepth).step.2 where
  maze_eq := rfl
  maxDepth_eq := rfl
  player_eq := h.player_eq
  taken_eq := by
    rw [h.taken_eq, List.nil_append]
    exact (List.append_nil _).symm
  tally_eq := by
    rw [h.tally_eq, Tally.zero_plus]
    exact n.tally.plus_zero.symm
  phase := by
    obtain ⟨top', hphase, hrest, -⟩ := hend
    obtain ⟨top, below, hm, hf⟩ := h.running hphase
    obtain ⟨rfl, htop, -⟩ := hf.done hrest
    have hq : Frame.Extends [] ⟨top.body, q ++ [], 0, 0, false⟩ [] ⟨q, q, 0, 0, false⟩ [] :=
      .outermost top.body q q
    rw [List.append_nil, ← htop] at hq
    rw [hm]
    exact .running hq

/-- A run that has told of the moves of a first run, and from there on is like a second, continues
it. -/
theorem Mirrors.continues {whole first second : Machine} {k : Nat} {t : Tally} {player : Player}
    (h : Mirrors first.last.walk.taken.toList t [] (whole.after k) second.step.2)
    (hevents : whole.events k = .started first.player :: first.stream.filter Event.isMove)
    (htally : first.last.tally = t.countStep)
    (hbegin : second.step.1 = ⟨[.started player], false⟩) : whole.Continues first second := by
  obtain ⟨hstream, hlast⟩ := h.last
  have hone : second.events 1 = [.started player] := by simp [events, outputs, hbegin]
  have htail : second.stream.tail = second.step.2.stream := by
    rw [second.stream_after 1, hone]
    rfl
  have hsecond : second.step.2.last = second.last := second.last_after 1
  rw [whole.last_after, hsecond] at hlast
  refine ⟨?_, hlast.ending?_eq, hlast.player_eq, hlast.taken_eq, ?_⟩
  · rw [whole.stream_after k, hevents, hstream, htail, List.cons_append]
  · rw [hlast.tally_eq, htally, Tally.countStep_plus]

/-- Where the first run is given up the whole run is given up with it. -/
theorem Mirrors.givenUp {taken : List Position} {before : Tally} {q : Program}
    {whole first : Machine} {k : Nat} (h : Mirrors taken before q (whole.after k) (first.after k))
    (hevents : whole.events k = first.events k) (hend : ¬ (first.after k).AtEnd)
    (hover : (first.after (k + 1)).isOver = true) :
    whole.stream = first.stream ∧ whole.last.ending? = first.last.ending? ∧
      whole.last.player = first.last.player := by
  obtain ⟨htold, hnext⟩ := h.step fun hdone => absurd hdone hend
  rw [← after_succ, ← after_succ] at hnext
  have hwhole : (whole.after (k + 1)).isOver = true := by
    rw [isOver, hnext.ending?_eq]
    exact hover
  refine ⟨?_, ?_, ?_⟩
  · rw [← stream_of_isOver_after hwhole, ← stream_of_isOver_after hover, events_succ, events_succ,
      hevents, htold]
  · rw [← last_of_isOver_after hwhole, ← last_of_isOver_after hover]
    exact hnext.ending?_eq
  · rw [← last_of_isOver_after hwhole, ← last_of_isOver_after hover]
    exact hnext.player_eq

/-- Running one program after another. A run of the first comes to its end or is given up. If it
comes to its end, the run of both is that run and then a run of the second program by the player
who is left, who keeps the cell to be sent back to, on the maze without the rewards picked up. If it
is given up, the run of both is no different. -/
theorem run_append (p q : Program) (maze : Maze) (player : Player) (maxDepth : Nat) :
    let whole := start (p ++ q) maze player maxDepth
    let first := start p maze player maxDepth
    let left := maze.withoutRewards first.last.walk.taken.toList
    (∃ reachedGoal, first.last.ending? = some (.completed reachedGoal) ∧
      first.last.player.start = player.start ∧
      whole.Continues first (start q left first.last.player maxDepth)) ∨
    (∃ limit, first.last.ending? = some (.tooDeep limit) ∧
      whole.stream = first.stream ∧ whole.last.ending? = first.last.ending? ∧
      whole.last.player = first.last.player) := by
  intro whole first left
  have hstart : Mirrors [] .zero q whole first :=
    ⟨rfl, rfl, rfl, rfl, (Tally.zero_plus _).symm, .fresh p⟩
  -- The runs are side by side up to the last unit of work of the first.
  obtain ⟨k, hbefore, hgoing, hlast⟩ := exists_last_step (m := first) rfl
  obtain ⟨hevents, hk⟩ := hstart.after (k := k) fun j hj hend => absurd hend (hbefore j hj)
  by_cases hend : (first.after k).AtEnd
  · obtain ⟨pace, hstep⟩ := hend.exists_step
    rw [hstep] at hlast
    have hrest := hk.second hend
    obtain ⟨hmaze, hdepth, -⟩ := whole.kept_after k
    rw [hmaze, hdepth, show (first.after k).walk = first.last.walk by rw [← hlast]; rfl,
      show (first.after k).player = first.last.player by rw [← hlast]; rfl] at hrest
    refine .inl ⟨_, by rw [← hlast]; rfl, (first.kept_after first.work).2.2, ?_⟩
    refine hrest.continues (hevents.trans (events_of_atEnd hgoing hend)) ?_ rfl
    rw [← hlast]
    rfl
  · have hover : (first.after k).step.2.isOver = true := hlast ▸ isOver_last first
    have hending := ending?_step_of_not_atEnd hgoing hend hover
    rw [hlast] at hending
    exact .inr ⟨_, hending, hk.givenUp hevents hend (by rwa [after_succ])⟩

end Machine

end Labyrinth
