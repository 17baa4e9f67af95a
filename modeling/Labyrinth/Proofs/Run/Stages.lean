import Labyrinth.Proofs.Run.Units

/-!
# A run from its first unit of work to its last

A run begins with a unit of work that tells of the player and nothing else. As long as it then goes
on, every further unit tells of a move that is tried or tells nothing. The last unit ends the run
where its program is done, or gives it up where a block is too deep.
-/

namespace Labyrinth

/-- An event that tells of a move that was tried. -/
def Event.isMove : Event → Bool
  | step .. | collected .. | lifeLost .. | sentBack .. => true
  | started _ | reachedGoal _ | log _ | finished _ => false

namespace Machine

/-- The program is done and the run has only to be ended. -/
def AtEnd (m : Machine) : Prop :=
  ∃ top, m.phase = .running top [] ∧ top.rest = [] ∧ top.remaining = 0

section

variable {m : Machine}

/-- Where the program is done the run ends, and the player is left as it is. -/
theorem AtEnd.exists_step (h : m.AtEnd) : ∃ pace, m.step = m.counted.finish pace := by
  obtain ⟨top, hphase, hrest, hr⟩ := h
  exact ⟨top.pace, (Does.finish hphase hrest hr).eq⟩

/-- Where the program is not done, a run that ends gives up. -/
theorem ending?_step_of_not_atEnd (hm : m.isOver = false) (hend : ¬ m.AtEnd)
    (hover : m.step.2.isOver = true) : m.step.2.ending? = some (.tooDeep m.maxDepth) := by
  have hdone := m.does_step
  generalize m.step = done at hdone hover ⊢
  cases hdone with
  | giveUp => rfl
  | finish hphase hrest hr => exact absurd ⟨_, hphase, hrest, hr⟩ hend
  | idle h => rw [h] at hm; cases hm
  | begin | move | pass | enter | rewind | leave => cases hover

/-- A run is under way after a unit of work. -/
theorem phase_step_ne_fresh (m : Machine) (p : Program) : m.step.2.phase ≠ .fresh p := by
  intro hfresh
  have hdone := m.does_step
  generalize m.step = done at hdone hfresh
  cases hdone with
  | idle h => rw [isOver, ending?, hfresh] at h; cases h
  | begin | move | pass | enter | giveUp | rewind | leave | finish => cases hfresh

/-- A run that is under way and goes on tells of moves only. -/
theorem isMove_of_mem_step {e : Event} (hbegun : ∀ p, m.phase ≠ .fresh p)
    (hgoing : m.step.2.isOver = false) (he : e ∈ m.step.1.events) : e.isMove = true := by
  have hdone := m.does_step
  generalize m.step = done at hdone hgoing he
  cases hdone with
  | begin h => exact absurd h (hbegun _)
  | move =>
    rw [List.mem_singleton.mp he]
    generalize Walk.landing _ _ _ = landing
    cases landing <;> rfl
  | giveUp | finish => cases hgoing
  | pass | enter | rewind | leave | idle => cases he

/-- The end of a run tells of no move. -/
theorem not_isMove_of_mem_finish {pace : Bool} {e : Event} (he : e ∈ (m.finish pace).1.events) :
    e.isMove = false := by
  rcases List.mem_append.mp he with harrival | hfinished
  · split at harrival
    · rw [List.mem_singleton.mp harrival]
      rfl
    · cases harrival
  · rw [List.mem_singleton.mp hfinished]
    rfl

/-- A unit of work changes neither the maze nor the limit of depth, nor the cell to which the player
is sent back. -/
theorem kept_step (m : Machine) :
    m.step.2.maze = m.maze ∧ m.step.2.maxDepth = m.maxDepth ∧
      m.step.2.player.start = m.player.start := by
  have hdone := m.does_step
  generalize m.step = done at hdone
  cases hdone with
  | @move top below d rest =>
    refine ⟨rfl, rfl, ?_⟩
    change (m.walk.after d (m.walk.landing m.maze d)).player.start = m.walk.player.start
    cases m.walk.landing m.maze d <;> rfl
  | begin | pass | enter | giveUp | rewind | leave | finish | idle => exact ⟨rfl, rfl, rfl⟩

/-- A run changes neither the maze nor the limit of depth, nor the cell to which the player is sent
back. -/
theorem kept_after (m : Machine) (n : Nat) :
    (m.after n).maze = m.maze ∧ (m.after n).maxDepth = m.maxDepth ∧
      (m.after n).player.start = m.player.start := by
  induction n with
  | zero => exact ⟨rfl, rfl, rfl⟩
  | succ n ih =>
    obtain ⟨hmaze, hdepth, hstart⟩ := (m.after n).kept_step
    rw [after_succ, hmaze, hdepth, hstart]
    exact ih

/-- There is a last unit of work, and the program is not done before it. -/
theorem exists_last_step (hm : m.isOver = false) :
    ∃ k, (∀ j < k, ¬ (m.after j).AtEnd) ∧ (m.after k).isOver = false ∧
      (m.after k).step.2 = m.last := by
  obtain ⟨k, hgoing, hover⟩ := exists_end hm
  refine ⟨k, fun j hj hend => ?_, hgoing, ?_⟩
  · obtain ⟨pace, hstep⟩ := hend.exists_step
    have hnext : (m.after (j + 1)).isOver = false := going_after_of_le hgoing hj
    rw [after_succ, hstep] at hnext
    cases hnext
  · rw [← after_succ, last_of_isOver_after hover]

end

/-- As long as a run goes on, it has told of its beginning and then of moves only. -/
theorem events_start {p : Program} {maze : Maze} {player : Player} {maxDepth k : Nat}
    (h : ((start p maze player maxDepth).after (k + 1)).isOver = false) :
    ∃ moves, (start p maze player maxDepth).events (k + 1) = .started player :: moves ∧
      ∀ e ∈ moves, e.isMove = true := by
  induction k with
  | zero => exact ⟨[], rfl, by simp⟩
  | succ k ih =>
    generalize hm : start p maze player maxDepth = m at h ih ⊢
    obtain ⟨moves, hevents, hmoves⟩ := ih (going_after_of_le h (Nat.le_succ _))
    refine ⟨moves ++ (m.after (k + 1)).step.1.events, ?_, fun e he => ?_⟩
    · rw [events_succ, hevents, List.cons_append]
    · rcases List.mem_append.mp he with he | he
      · exact hmoves e he
      · rw [after_succ] at h
        refine isMove_of_mem_step (fun q => ?_) h he
        rw [after_succ]
        exact phase_step_ne_fresh _ q

/-- A run that tells of moves up to where its program is done has told of all its moves then. -/
theorem events_of_atEnd {p : Program} {maze : Maze} {player : Player} {maxDepth k : Nat}
    (hgoing : ((start p maze player maxDepth).after k).isOver = false)
    (hend : ((start p maze player maxDepth).after k).AtEnd) :
    (start p maze player maxDepth).events k =
      .started player :: (start p maze player maxDepth).stream.filter Event.isMove := by
  cases k with
  | zero =>
    obtain ⟨top, hphase, -⟩ := hend
    cases hphase
  | succ k =>
    obtain ⟨moves, hevents, hmoves⟩ := events_start hgoing
    obtain ⟨pace, hstep⟩ := hend.exists_step
    generalize start p maze player maxDepth = m at hgoing hend hevents hstep ⊢
    have hstream : m.stream =
        m.events (k + 1) ++ ((m.after (k + 1)).counted.finish pace).1.events := by
      have hover : (m.after (k + 1 + 1)).isOver = true := by
        rw [after_succ, hstep]
        rfl
      rw [← stream_of_isOver_after hover, events_succ, hstep]
    have hquiet : ((m.after (k + 1)).counted.finish pace).1.events.filter Event.isMove = [] :=
      List.filter_eq_nil_iff.mpr fun e he => Bool.eq_false_iff.mp (not_isMove_of_mem_finish he)
    rw [hstream, hevents, List.filter_append, hquiet, List.append_nil,
      List.filter_cons_of_neg (by simp [Event.isMove]), List.filter_eq_self.mpr hmoves]

end Machine

end Labyrinth
