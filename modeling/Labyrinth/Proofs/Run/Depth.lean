import Labyrinth.Proofs.Instruction.Nesting
import Labyrinth.Proofs.Instruction.Pruning
import Labyrinth.Proofs.Run.Simulation
import Labyrinth.Proofs.Run.Stages

/-!
# The limit of depth

A block is as deep as there are programs in progress around it, and it is entered only within the
limit. `Machine.Guarded` is what every unit of work keeps of this; by it no run enters more levels
than its program reaches, and none is given up whose program stays within the limit. Where no
condition stands in the way, the meaning of a program shows that one which reaches deeper is always
given up.
-/

namespace Labyrinth

/-- A block that is run only if the player holds enough. -/
def Instruction.isCondition : Instruction → Bool
  | .block (.atLeast _) _ => true
  | _ => false

/-- A block that is entered reaches one level deeper than what is inside. -/
theorem Instruction.Enters.reach_eq {held : Nat} {i : Instruction} {body : Program}
    {remaining : Nat} (h : i.Enters held body remaining) : i.reach = 1 + body.reach := by
  cases h with
  | loop body h => rw [reach, if_neg (by omega)]
  | condition body h => rfl

/-- Programs in progress, innermost first. Each is as deep as there are others around it, which is
allowed, and neither what is left of it nor another round reaches deeper than a bound. -/
inductive Frame.Stacked (maxDepth bound : Nat) : List Frame → Prop
  /-- None. -/
  | nil : Stacked maxDepth bound []
  /-- One inside the others. -/
  | cons {f : Frame} {fs : List Frame} (others : Stacked maxDepth bound fs)
    (depth_eq : f.depth = fs.length) (allowed : fs.length ≤ maxDepth)
    (body_le : fs.length + f.body.reach ≤ bound) (rest_le : fs.length + f.rest.reach ≤ bound) :
    Stacked maxDepth bound (f :: fs)

namespace Frame.Stacked

variable {maxDepth bound : Nat} {f : Frame} {fs : List Frame}

/-- The depths count the programs in progress from the outermost on. -/
theorem depths_eq (h : Stacked maxDepth bound fs) :
    fs.reverse.map Frame.depth = List.range fs.length := by
  induction h with
  | nil => rfl
  | cons others depth_eq allowed body_le rest_le ih =>
    rw [List.reverse_cons, List.map_append, ih, List.length_cons, List.range_succ,
      List.map_singleton, depth_eq]

/-- There is at most one program in progress for every depth that is allowed. -/
theorem length_le (h : Stacked maxDepth bound fs) : fs.length ≤ maxDepth + 1 := by
  cases h with
  | nil => exact Nat.zero_le _
  | cons others depth_eq allowed => exact Nat.succ_le_succ allowed

/-- An instruction is taken. -/
theorem take {i : Instruction} {rest : Program} (h : Stacked maxDepth bound (f :: fs))
    (hrest : f.rest = i :: rest) :
    Stacked maxDepth bound ({ f with rest := rest } :: fs) ∧ fs.length + i.reach ≤ bound := by
  cases h with
  | cons others depth_eq allowed body_le rest_le =>
    rw [hrest, Program.reach] at rest_le
    refine ⟨.cons others depth_eq allowed body_le ?_, ?_⟩
    · change fs.length + rest.reach ≤ bound
      omega
    · omega

/-- Another round begins. -/
theorem rewind (h : Stacked maxDepth bound (f :: fs)) (remaining : Nat) :
    Stacked maxDepth bound ({ f with rest := f.body, remaining := remaining } :: fs) := by
  cases h with
  | cons others depth_eq allowed body_le => exact .cons others depth_eq allowed body_le body_le

theorem tail (h : Stacked maxDepth bound (f :: fs)) : Stacked maxDepth bound fs := by
  cases h with
  | cons others => exact others

theorem depth_eq (h : Stacked maxDepth bound (f :: fs)) : f.depth = fs.length := by
  cases h with
  | cons others depth_eq => exact depth_eq

end Frame.Stacked

/-- What the depth of a run is bound by, in each phase. -/
def Phase.Bounded (maxDepth bound : Nat) : Phase → Prop
  | .fresh p => p.reach ≤ bound
  | .running top below => Frame.Stacked maxDepth bound (top :: below)
  | .over (.completed _) => True
  | .over (.tooDeep _) => maxDepth < bound

namespace Machine

/-- The run was given up because a block was too deep. -/
def gaveUp (m : Machine) : Bool :=
  match m.ending? with
  | some (.tooDeep _) => true
  | _ => false

/-- A run with a limit of depth, of a program that reaches no deeper than a bound. -/
structure Guarded (maxDepth bound : Nat) (m : Machine) : Prop where
  /-- It has this limit. -/
  maxDepth_eq : m.maxDepth = maxDepth
  /-- The deepest block entered is within the limit. -/
  deepest_le_maxDepth : m.tally.deepest ≤ maxDepth
  /-- The deepest block entered is within the bound. -/
  deepest_le : m.tally.deepest ≤ bound
  /-- So are the programs in progress. -/
  phase : m.phase.Bounded maxDepth bound

namespace Guarded

variable {maxDepth bound : Nat} {m : Machine}

theorem running {top : Frame} {below : List Frame} (h : m.Guarded maxDepth bound)
    (hm : m.phase = .running top below) : Frame.Stacked maxDepth bound (top :: below) := by
  have hphase := h.phase
  rw [hm] at hphase
  exact hphase

/-- Turning to other programs in progress. -/
theorem goOn {top : Frame} {below : List Frame} (h : m.Guarded maxDepth bound)
    (hf : Frame.Stacked maxDepth bound (top :: below)) :
    (m.counted.goOn top below).Guarded maxDepth bound :=
  ⟨h.maxDepth_eq, h.deepest_le_maxDepth, h.deepest_le, hf⟩

/-- A move enters no block. -/
theorem move (h : m.Guarded maxDepth bound) (d : Direction) :
    (m.move d).2.Guarded maxDepth bound := by
  have hdeepest : (m.move d).2.tally.deepest = m.tally.deepest := by
    unfold Machine.move
    dsimp only
    cases m.walk.landing m.maze d <;> rfl
  exact ⟨h.maxDepth_eq, hdeepest ▸ h.deepest_le_maxDepth, hdeepest ▸ h.deepest_le, h.phase⟩

/-- A unit of work keeps to the limit. -/
theorem step (h : m.Guarded maxDepth bound) : m.step.2.Guarded maxDepth bound := by
  have hdone := m.does_step
  generalize m.step = done at hdone ⊢
  cases hdone with
  | begin hm =>
    have hreach := h.phase
    rw [hm, Phase.Bounded] at hreach
    refine ⟨h.maxDepth_eq, h.deepest_le_maxDepth, h.deepest_le, ?_⟩
    exact .cons .nil rfl (Nat.zero_le _) (by simpa using hreach) (by simpa using hreach)
  | move hm hrest => exact (h.goOn ((h.running hm).take hrest).1).move _
  | pass hm hrest hi => exact h.goOn ((h.running hm).take hrest).1
  | @enter top below i rest body remaining hm hrest hi hd =>
    obtain ⟨hframes, hreach⟩ := (h.running hm).take hrest
    have hdepth : top.depth = below.length := (h.running hm).depth_eq
    rw [hi.reach_eq] at hreach
    rw [h.maxDepth_eq] at hd
    have hbody : below.length + 1 + body.reach ≤ bound := by omega
    refine ⟨h.maxDepth_eq, ?_, ?_, ?_⟩
    · exact Nat.max_le.mpr ⟨h.deepest_le_maxDepth, hd⟩
    · refine Nat.max_le.mpr ⟨h.deepest_le, ?_⟩
      change top.depth + 1 ≤ bound
      omega
    · refine .cons hframes (congrArg (· + 1) hdepth) ?_ hbody hbody
      rw [List.length_cons]
      omega
  | @giveUp top below i rest body remaining hm hrest hi hd =>
    have hreach := ((h.running hm).take hrest).2
    have hdepth : top.depth = below.length := (h.running hm).depth_eq
    rw [hi.reach_eq] at hreach
    rw [h.maxDepth_eq] at hd
    refine ⟨h.maxDepth_eq, h.deepest_le_maxDepth, h.deepest_le, ?_⟩
    change maxDepth < bound
    omega
  | rewind hm hrest hr => exact h.goOn ((h.running hm).rewind _)
  | leave hm hrest hr => exact h.goOn (h.running hm).tail
  | finish => exact ⟨h.maxDepth_eq, h.deepest_le_maxDepth, h.deepest_le, trivial⟩
  | idle => exact h

/-- A run keeps to the limit. -/
theorem after (h : m.Guarded maxDepth bound) (n : Nat) : (m.after n).Guarded maxDepth bound :=
  run_induction (motive := fun _ m => m.Guarded maxDepth bound) h (fun _ _ h => h.step) n

/-- Only a run of a program that reaches deeper than the limit is given up. -/
theorem lt_of_gaveUp (h : m.Guarded maxDepth bound) (hgave : m.gaveUp = true) :
    maxDepth < bound := by
  have hphase := h.phase
  unfold gaveUp ending? at hgave
  match hm : m.phase with
  | .over (.tooDeep limit) =>
    rw [hm] at hphase
    exact hphase
  | .over (.completed reached) => simp [hm] at hgave
  | .fresh p => simp [hm] at hgave
  | .running top below => simp [hm] at hgave

end Guarded

theorem guarded_start (p : Program) (maze : Maze) (player : Player) (maxDepth : Nat) :
    (start p maze player maxDepth).Guarded maxDepth p.reach :=
  ⟨rfl, Nat.zero_le _, Nat.zero_le _, Nat.le_refl _⟩

end Machine

theorem Account.tooDeep_andThen (a : Account) (next : Standing → Account) :
    (a.andThen next).tooDeep = (a.tooDeep || (next a.standing).tooDeep) := by
  cases h : a.tooDeep <;> simp [andThen, h]

namespace Meaning

variable {maze : Maze} {maxDepth depth : Nat}

/-- A block that is entered at least once is given up if its body always is. -/
theorem tooDeep_entered {body : Standing → Account} {count : Nat} (hcount : count ≠ 0)
    (hbody : depth ≤ maxDepth → ∀ s, (body s).tooDeep = true) (s : Standing) :
    (entered maxDepth depth count body s).tooDeep = true := by
  unfold entered
  split
  · rfl
  next hdepth =>
    obtain ⟨count, rfl⟩ := Nat.exists_eq_succ_of_ne_zero hcount
    rw [Account.tooDeep_andThen, Account.rounds, Account.tooDeep_andThen,
      hbody (Nat.le_of_not_lt hdepth)]
    rfl

/-- A program without conditions that reaches deeper than the limit is given up, whoever runs it and
wherever. -/
theorem tooDeep_program {p : Program} (hfree : p.Free Instruction.isCondition)
    (hdepth : depth ≤ maxDepth) (hreach : maxDepth < depth + p.reach) (s : Standing) :
    (program maze maxDepth p depth s).tooDeep = true := by
  induction p using Instruction.programInduction generalizing depth s with
  | nil =>
    rw [Program.reach] at hreach
    omega
  | block header body rest ihBody ih =>
    rw [Program.reach] at hreach
    rw [program, Account.tooDeep_andThen, Bool.or_eq_true]
    rcases Nat.lt_or_ge maxDepth (depth + rest.reach) with hlater | hnever
    · exact .inr (ih (fun j hj => hfree j (.tail _ hj)) hdepth hlater _)
    · have hblock : maxDepth < depth + (Instruction.block header body).reach := by omega
      refine .inl ?_
      cases header with
      | times n =>
        rw [Instruction.reach] at hblock
        split at hblock
        · omega
        next hn =>
          rw [instruction, if_neg hn]
          have hbody : body.Free Instruction.isCondition := fun j hj => hfree j (.inside _ _ hj)
          exact tooDeep_entered hn (fun hinner => ihBody hbody hinner (by omega)) s
      | atLeast n => cases hfree _ (.head rest)
      | untilGoal | whileHolding | function =>
        rw [Instruction.reach] at hblock
        omega
  | move d rest ih | call rest ih | noop rest ih =>
    rw [Program.reach, Instruction.reach, Nat.zero_max] at hreach
    rw [program, Account.tooDeep_andThen, Bool.or_eq_true]
    exact .inr (ih (fun j hj => hfree j (.tail _ hj)) hdepth hreach _)

end Meaning

namespace Machine

/-- A run is given up if its program means that. -/
theorem gaveUp_last (p : Program) (maze : Maze) (player : Player) (maxDepth : Nat) :
    (start p maze player maxDepth).last.gaveUp =
      (Meaning.program maze maxDepth p 0 ⟨player, []⟩).tooDeep := by
  obtain ⟨n, -, hp⟩ := exists_course p maze player maxDepth
  generalize Meaning.program maze maxDepth p 0 ⟨player, []⟩ = a at hp ⊢
  have hending : ((start p maze player maxDepth).after n).ending? =
      some (a.ending maze maxDepth) := by
    rw [ending?, hp.phase_eq]
  have hover : ((start p maze player maxDepth).after n).isOver = true := by
    rw [isOver, hending]
    rfl
  rw [← last_of_isOver_after hover, gaveUp, hending, Account.ending]
  cases a.tooDeep <;> rfl

/-- The limit of depth is exact. As long as a run that has begun is not over, there are programs in
progress; from the outermost on their depths are 0, 1, 2 and so on, so there is at most one more of
them than the limit. The deepest block entered is within the limit and within what the program
reaches, which is no more than its depth. A run of a program that reaches no deeper than the limit,
such as one whose depth is within the limit, is never given up; and if a program has no conditions,
its run is given up exactly if it reaches deeper than the limit. -/
theorem limit_of_depth_is_exact (p : Program) (maze : Maze) (player : Player) (maxDepth : Nat) :
    let m := start p maze player maxDepth
    (∀ n, (m.after (n + 1)).isOver = false →
        ∃ top below, (m.after (n + 1)).phase = .running top below ∧
          (top :: below).reverse.map Frame.depth = List.range (top :: below).length ∧
          (top :: below).length ≤ maxDepth + 1) ∧
      (∀ n, (m.after n).tally.deepest ≤ min maxDepth p.reach) ∧
      (p.reach ≤ maxDepth → ∀ n, (m.after n).gaveUp = false) ∧
      (p.maxDepth ≤ maxDepth → ∀ n, (m.after n).gaveUp = false) ∧
      (p.Free Instruction.isCondition → (m.last.gaveUp = true ↔ maxDepth < p.reach)) := by
  intro m
  have hguarded (n : Nat) : (m.after n).Guarded maxDepth p.reach :=
    (guarded_start p maze player maxDepth).after n
  have hnever (hreach : p.reach ≤ maxDepth) (n : Nat) : (m.after n).gaveUp = false := by
    rw [← Bool.not_eq_true]
    intro hgave
    have := (hguarded n).lt_of_gaveUp hgave
    omega
  refine ⟨fun n hgoing => ?_, fun n => ?_, hnever,
    fun hdepth => hnever (Nat.le_trans p.reach_le_maxDepth hdepth), fun hfree => ?_⟩
  · match hphase : (m.after (n + 1)).phase with
    | .running top below =>
      have hframes := (hguarded (n + 1)).running hphase
      exact ⟨top, below, rfl, hframes.depths_eq, hframes.length_le⟩
    | .fresh q =>
      rw [after_succ] at hphase
      exact absurd hphase (phase_step_ne_fresh _ q)
    | .over e => simp [isOver, ending?, hphase] at hgoing
  · exact Nat.le_min.mpr ⟨(hguarded n).deepest_le_maxDepth, (hguarded n).deepest_le⟩
  · constructor
    · exact (hguarded m.work).lt_of_gaveUp
    · intro hreach
      rw [gaveUp_last]
      exact Meaning.tooDeep_program hfree (Nat.zero_le _) (by simpa using hreach) _

/-- A loop inside a loop is run with a limit of two and not with a limit of one, whatever stands in
a reserved block or in a loop of no rounds. -/
theorem limit_of_depth_of_nested_loops :
    let deep : Program := [.repeated 1 [.repeated 1 [.repeated 1 [.move .left]]]]
    let p : Program :=
      [.repeated 2 [.block .function deep, .repeated 1 [.move .right]], .repeated 0 deep]
    let maze : Maze := ⟨.blank 3 1, Layout.fault?_eq_none_iff.mp (by decide)⟩
    let player := Player.atStart ⟨0, 0⟩
    p.maxDepth = 6 ∧ p.reach = 2 ∧ p.Free Instruction.isCondition ∧
      (∀ n, ((start p maze player 2).after n).gaveUp = false) ∧
      (start p maze player 1).last.gaveUp = true := by
  intro deep p maze player
  have hdepth : p.maxDepth = 6 := p.maxDepth_eq_nesting.trans (by decide)
  have hreach : p.reach = 2 := by decide
  have hfree : p.Free Instruction.isCondition := Program.without_eq_self_iff.mp (by decide)
  obtain ⟨-, -, hwithin, -, -⟩ := limit_of_depth_is_exact p maze player 2
  obtain ⟨-, -, -, -, hiff⟩ := limit_of_depth_is_exact p maze player 1
  refine ⟨hdepth, hreach, hfree, hwithin (Nat.le_of_eq hreach), (hiff hfree).mpr ?_⟩
  rw [hreach]
  exact Nat.one_lt_two

end Machine

end Labyrinth
