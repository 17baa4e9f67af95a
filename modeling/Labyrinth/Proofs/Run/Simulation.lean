import Labyrinth.Proofs.Run.Meaning

/-!
# The machine computes the meaning

The frames of the machine, with their remaining instructions and rounds, compute the
meaning of programs. One instruction is taken at a time; a block that is entered becomes a
frame of its own, which the machine leaves after its last round with the request for a
pause. `Machine.simulates_program` is the induction along the tree of a program.
-/

namespace Labyrinth

namespace Machine

/-- Wherever a program stands in a frame, the machine arrives at what it means. -/
def Simulates (maze : Maze) (maxDepth : Nat) (p : Program) : Prop :=
  ∀ (top : Frame) (below : List Frame) (s : Standing) (m : Machine),
    m.Poised maze maxDepth s (.running { top with rest := p } below) →
    m.Arrives maze maxDepth (Meaning.program maze maxDepth p top.depth s)
      (.running { top with rest := [] } below)

section

variable {maze : Maze} {maxDepth : Nat} {s : Standing} {m : Machine} {top : Frame}
  {below : List Frame}

/-- The next instruction of the innermost frame is taken. -/
theorem Poised.step_cons {i : Instruction} {rest : Program}
    (h : m.Poised maze maxDepth s (.running { top with rest := i :: rest } below)) :
    m.step = ({ m with tally := m.tally.countStep } : Machine).dispatch i
      { top with rest := rest } below := by
  unfold step
  rw [h.phase_eq]
  rfl

/-- A frame with rounds left begins the next one. -/
theorem Poised.step_nil_succ {n : Nat}
    (h : m.Poised maze maxDepth s (.running { top with rest := [], remaining := n + 1 } below)) :
    m.step = (.silent, ({ m with tally := m.tally.countStep } : Machine).goOn
      { top with rest := top.body, remaining := n } below) := by
  unfold step
  rw [h.phase_eq]
  rfl

/-- A frame with nothing left is left for the one below it. -/
theorem Poised.step_nil_zero {next : Frame}
    (h : m.Poised maze maxDepth s
      (.running { top with rest := [], remaining := 0 } (next :: below))) :
    m.step = (⟨[], top.pace⟩,
      ({ m with tally := m.tally.countStep } : Machine).goOn next below) := by
  unfold step
  rw [h.phase_eq]
  rfl

/-- Neither counting nor turning to other frames changes where the player stands. -/
theorem Poised.goOn {phase : Phase} (h : m.Poised maze maxDepth s phase) (t : Tally)
    (top : Frame) (below : List Frame) :
    (({ m with tally := t } : Machine).goOn top below).Poised maze maxDepth s
      (.running top below) :=
  ⟨h.maze_eq, h.maxDepth_eq, h.standing_eq, rfl⟩

/-- A frame that begins its first of `n + 1` rounds runs all of them and is left. -/
theorem arrives_rounds {body : Program} (hbody : Simulates maze maxDepth body) (n : Nat)
    {depth : Nat} {next : Frame}
    (h : m.Poised maze maxDepth s (.running ⟨body, body, n, depth, true⟩ (next :: below))) :
    m.Arrives maze maxDepth
      ((Account.rounds (Meaning.program maze maxDepth body depth) (n + 1) s).andThen .paused)
      (.running next below) := by
  induction n generalizing s m with
  | zero =>
    rw [Account.rounds, Account.andThen_assoc]
    refine (hbody ⟨body, body, 0, depth, true⟩ _ s m h).andThen ?_
    intro m' hm'
    rw [Account.rounds, Account.still_andThen]
    have hstep := hm'.step_nil_zero
    refine arrives_of_step (by rw [hstep]; rfl) ?_
    rw [hstep]
    exact hm'.goOn _ _ _
  | succ n ih =>
    rw [Account.rounds, Account.andThen_assoc]
    refine (hbody ⟨body, body, n + 1, depth, true⟩ _ s m h).andThen ?_
    intro m' hm'
    have hstep := hm'.step_nil_succ
    refine Arrives.of_silent_step (by rw [hstep]; rfl) ?_
    rw [hstep]
    exact ih (hm'.goOn _ _ _)

/-- Entering a block either gives the run up or runs the rounds of the block. -/
theorem arrives_entered {body : Program} (hbody : Simulates maze maxDepth body) (n : Nat)
    {phase : Phase} (h : m.Poised maze maxDepth s phase) {t : Tally}
    (hstep : m.step = ({ m with tally := t } : Machine).enter body n top below) :
    m.Arrives maze maxDepth
      (Meaning.entered maxDepth (top.depth + 1) (n + 1)
        (Meaning.program maze maxDepth body (top.depth + 1)) s) (.running top below) := by
  obtain ⟨rfl, rfl, rfl, hphase⟩ := h
  unfold Meaning.entered
  unfold enter at hstep
  by_cases hd : m.maxDepth < top.depth + 1
  · rw [if_pos hd] at hstep ⊢
    refine ⟨1, ?_, ?_⟩
    · rw [Machine.marks, outputs, hstep]
      rfl
    · rw [after, after, hstep]
      exact ⟨rfl, rfl, rfl, rfl⟩
  · rw [if_neg hd] at hstep ⊢
    refine Arrives.of_silent_step (by rw [hstep]; rfl) ?_
    rw [hstep]
    exact arrives_rounds hbody n ⟨rfl, rfl, rfl, rfl⟩

/-- The machine takes an instruction to what it means, if that holds inside a block. -/
theorem arrives_instruction {i : Instruction}
    (hbody : ∀ body, i.body? = some body → Simulates maze maxDepth body) {rest : Program}
    (h : m.Poised maze maxDepth s (.running { top with rest := i :: rest } below)) :
    m.Arrives maze maxDepth (Meaning.instruction maze maxDepth i top.depth s)
      (.running { top with rest := rest } below) := by
  have hstep := h.step_cons
  have hp : m.walk.standing = s := h.standing_eq
  have hn : m.player.strawberries = s.player.strawberries :=
    congrArg (fun t => t.player.strawberries) hp
  cases i with
  | move d =>
    have hm := m.walk.move_standing maze d
    rw [hp] at hm
    simp only [Meaning.instruction, hm]
    refine arrives_of_step ?_ ?_
    · rw [hstep, ← h.maze_eq]
      rfl
    · rw [hstep]
      exact ⟨h.maze_eq, h.maxDepth_eq, by rw [← h.maze_eq]; rfl, rfl⟩
  | block header body =>
    have hb := hbody body rfl
    cases header with
    | times n =>
      simp only [Meaning.instruction]
      simp only [dispatch] at hstep
      by_cases h0 : n.toNat = 0
      · rw [if_pos h0] at hstep ⊢
        exact arrives_of_step (by rw [hstep]; rfl) (by rw [hstep]; exact h.goOn _ _ _)
      · rw [if_neg h0] at hstep ⊢
        have harr := arrives_entered hb (n.toNat - 1) h hstep
        rwa [Nat.sub_add_cancel (Nat.pos_of_ne_zero h0)] at harr
    | atLeast n =>
      simp only [Meaning.instruction]
      simp only [dispatch, show ({ m with tally := m.tally.countStep } : Machine).player = m.player
        from rfl, hn] at hstep
      by_cases hle : n.toNat ≤ s.player.strawberries
      · rw [if_pos hle] at hstep ⊢
        exact arrives_entered hb 0 h hstep
      · rw [if_neg hle] at hstep ⊢
        exact arrives_of_step (by rw [hstep]; rfl) (by rw [hstep]; exact h.goOn _ _ _)
    | untilGoal => exact arrives_of_step (by rw [hstep]; rfl) (by rw [hstep]; exact h.goOn _ _ _)
    | whileHolding => exact arrives_of_step (by rw [hstep]; rfl) (by rw [hstep]; exact h.goOn _ _ _)
    | function => exact arrives_of_step (by rw [hstep]; rfl) (by rw [hstep]; exact h.goOn _ _ _)
  | call => exact arrives_of_step (by rw [hstep]; rfl) (by rw [hstep]; exact h.goOn _ _ _)
  | noop => exact arrives_of_step (by rw [hstep]; rfl) (by rw [hstep]; exact h.goOn _ _ _)

/-- One more instruction in front of a program. -/
theorem simulates_cons {i : Instruction} {rest : Program}
    (hbody : ∀ body, i.body? = some body → Simulates maze maxDepth body)
    (hrest : Simulates maze maxDepth rest) : Simulates maze maxDepth (i :: rest) := by
  intro top below s m h
  rw [Meaning.program]
  refine (arrives_instruction hbody h).andThen ?_
  intro m' hm'
  exact hrest top below _ m' hm'

/-- The machine takes every program, in whatever frame it stands, to what it means. -/
theorem simulates_program (maze : Maze) (maxDepth : Nat) (p : Program) :
    Simulates maze maxDepth p := by
  induction p using Instruction.programInduction with
  | nil => exact fun top below s m h => arrives_still h
  | move d rest ih => exact simulates_cons (fun body hb => nomatch hb) ih
  | block h body rest ihBody ih =>
    refine simulates_cons (fun b hb => ?_) ih
    rw [← Option.some.inj hb]
    exact ihBody
  | call rest ih => exact simulates_cons (fun body hb => nomatch hb) ih
  | noop rest ih => exact simulates_cons (fun body hb => nomatch hb) ih

/-- The outermost frame, with nothing left, ends the run. -/
theorem Poised.step_finish {p : Program}
    (h : m.Poised maze maxDepth s (.running ⟨p, [], 0, 0, false⟩ [])) :
    m.step.1.marks = (Account.still s).closing maze maxDepth ∧
      m.step.2.Poised maze maxDepth s
        (.over (.completed (maze.goal = some s.player.position))) := by
  obtain ⟨rfl, rfl, rfl, hphase⟩ := h
  have hstep : m.step = ({ m with tally := m.tally.countStep } : Machine).finish false := by
    unfold step
    rw [hphase]
    rfl
  rw [hstep]
  refine ⟨?_, rfl, rfl, rfl, rfl⟩
  simp only [finish, Account.closing, Account.still, Output.marks, standing, Walk.standing, player]
  by_cases hg : m.maze.goal = some m.walk.player.position
  · simp [hg]
  · simp [hg]

/-- A whole run arrives at its end with all that the meaning of its program says. -/
theorem exists_course (program : Program) (maze : Maze) (player : Player) (maxDepth : Nat) :
    ∃ n, (start program maze player maxDepth).marks n = .event (.started player) ::
        ((Meaning.program maze maxDepth program 0 ⟨player, []⟩).marks ++
          (Meaning.program maze maxDepth program 0 ⟨player, []⟩).closing maze maxDepth) ∧
      ((start program maze player maxDepth).after n).Poised maze maxDepth
        (Meaning.program maze maxDepth program 0 ⟨player, []⟩).standing
        (.over ((Meaning.program maze maxDepth program 0 ⟨player, []⟩).ending maze maxDepth)) := by
  let first := (start program maze player maxDepth).step.2
  have hfirst : first.Poised maze maxDepth ⟨player, []⟩
      (.running { (⟨program, program, 0, 0, false⟩ : Frame) with rest := program } []) :=
    ⟨rfl, rfl, rfl, rfl⟩
  obtain ⟨n, hn, hp⟩ := simulates_program maze maxDepth program _ _ _ _ hfirst
  generalize Meaning.program maze maxDepth program 0 ⟨player, []⟩ = a at hn hp ⊢
  cases ha : a.tooDeep with
  | true =>
    simp only [ha, if_true] at hn hp
    refine ⟨n + 1, ?_, ?_⟩
    · rw [← hn]
      rfl
    · rw [Account.ending, if_pos ha]
      exact hp
  | false =>
    simp only [ha, Bool.false_eq_true, if_false, List.append_nil] at hn hp
    obtain ⟨hmarks, hover⟩ := hp.step_finish
    refine ⟨n + 1 + 1, ?_, ?_⟩
    · have hc : (Account.still a.standing).closing maze maxDepth = a.closing maze maxDepth := by
        simp only [Account.closing, Account.still, ha]
        rfl
      rw [← hc, ← hmarks, ← hn, ← marks_succ]
      rfl
    · rw [after_succ, Account.ending, if_neg (by simp [ha])]
      exact hover

/-- Every run comes to an end, and all that is seen of it up to there, and from there on, is the
first event, what its program means, and what is told at the end. It leaves behind the player and
the strawberries of that meaning, and ends as it says. -/
theorem marks_eq_meaning (program : Program) (maze : Maze) (player : Player) (maxDepth : Nat) :
    let m := start program maze player maxDepth
    let a := Meaning.program maze maxDepth program 0 ⟨player, []⟩
    ∃ n, (∀ k, (m.after k).isOver = true ↔ n ≤ k) ∧
      ∀ k, n ≤ k →
        m.marks k = .event (.started player) :: (a.marks ++ a.closing maze maxDepth) ∧
        (m.after k).standing = a.standing ∧
        (m.after k).ending? = some (a.ending maze maxDepth) := by
  intro m a
  obtain ⟨n, hn⟩ := exists_isOver_after_iff (m := m) rfl
  refine ⟨n, hn, ?_⟩
  intro k hk
  have hover : (m.after k).isOver = true := (hn k).mpr hk
  obtain ⟨j, hmarks, hp⟩ := exists_course program maze player maxDepth
  have hending : (m.after j).ending? = some (a.ending maze maxDepth) := by
    rw [ending?, hp.phase_eq]
  have hj : (m.after j).isOver = true := by
    rw [isOver, hending]
    rfl
  have hlast : m.after k = m.after j := by
    rw [last_of_isOver_after hover, last_of_isOver_after hj]
  refine ⟨?_, ?_, ?_⟩
  · rw [← hmarks]
    exact flatMap_outputs_eq _ rfl hj hover
  · rw [hlast]
    exact hp.standing_eq
  · rw [hlast]
    exact hending

end

end Machine

end Labyrinth
