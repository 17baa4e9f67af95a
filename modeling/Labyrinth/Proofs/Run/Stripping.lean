import Labyrinth.Proofs.Instruction.Pruning
import Labyrinth.Proofs.Run.Units

/-!
# Reserved instructions leave no trace

A run of a program and a run of the same program without its reserved instructions are seen to do
the same. Wherever the first passes over a reserved instruction, nothing is seen and the second
waits; everything else both do alike. `Machine.Stripped` is the relation of the two runs, and
`Stripped.step` says that a unit of work of the first is either of no account or one of the second
as well.
-/

namespace Labyrinth

namespace Instruction

variable {drop : Instruction → Bool} {i : Instruction} {held : Nat}

/-- What is inside a block does not decide whether it is reserved. -/
theorem isReserved_pruned : (i.pruned drop).isReserved = i.isReserved := by
  cases i <;> rfl

/-- What is inside a block does not decide whether it is passed over. -/
theorem Passes.pruned {pace : Bool} (h : i.Passes held pace) :
    (i.pruned drop).Passes held pace := by
  cases h with
  | noRounds body h => exact .noRounds _ h
  | unmet body h => exact .unmet _ h
  | reserved h => exact .reserved (isReserved_pruned.trans h)

/-- What is inside a block does not decide whether it is entered. -/
theorem Enters.pruned {body : Program} {remaining : Nat} (h : i.Enters held body remaining) :
    (i.pruned drop).Enters held (body.without drop) remaining := by
  cases h with
  | loop body h => exact .loop _ h
  | condition body h => exact .condition _ h

theorem Enters.isReserved {body : Program} {remaining : Nat} (h : i.Enters held body remaining) :
    i.isReserved = false := by
  cases h <;> rfl

end Instruction

/-- A frame without the reserved instructions of its program. -/
def Frame.stripped (f : Frame) : Frame :=
  { f with
    body := f.body.without Instruction.isReserved
    rest := f.rest.without Instruction.isReserved }

/-- The programs in progress without their reserved instructions. -/
def Phase.stripped : Phase → Phase
  | .fresh p => .fresh (p.without Instruction.isReserved)
  | .running top below => .running top.stripped (below.map Frame.stripped)
  | .over e => .over e

namespace Frame

variable {f : Frame} {i : Instruction} {rest : Program}

/-- A reserved instruction is missing. -/
theorem stripped_of_isReserved (hrest : f.rest = i :: rest) (hi : i.isReserved = true) :
    f.stripped = { f with rest := rest }.stripped := by
  simp only [stripped, hrest, Program.without_cons_of_pos hi]

/-- Any other instruction is there. -/
theorem rest_stripped (hrest : f.rest = i :: rest) (hi : i.isReserved = false) :
    f.stripped.rest =
      i.pruned Instruction.isReserved :: { f with rest := rest }.stripped.rest := by
  simp only [stripped, hrest, Program.without_cons_of_neg hi]

theorem rest_stripped_of_nil (hrest : f.rest = []) : f.stripped.rest = [] := by
  simp only [stripped, hrest, Program.without]

end Frame

namespace Machine

/-- The run `n` stands where the run `m` stands, with programs that lack the reserved instructions.
It may have counted other units of work. -/
structure Stripped (m n : Machine) : Prop where
  /-- The mazes are the same. -/
  maze_eq : n.maze = m.maze
  /-- The limits of depth are the same. -/
  maxDepth_eq : n.maxDepth = m.maxDepth
  /-- The players are the same, and the rewards picked up. -/
  walk_eq : n.walk = m.walk
  /-- Everything but the units of work is counted alike. -/
  tally_eq : ∃ steps, n.tally = { m.tally with steps }
  /-- The programs in progress are the same but for the reserved instructions. -/
  phase_eq : n.phase = m.phase.stripped

namespace Stripped

variable {m n : Machine} {top : Frame} {below : List Frame}

theorem player_eq (h : m.Stripped n) : n.player = m.player := congrArg Walk.player h.walk_eq

/-- One run is over when the other is, and they end alike. -/
theorem ending?_eq (h : m.Stripped n) : n.ending? = m.ending? := by
  rw [ending?, ending?, h.phase_eq]
  cases m.phase <;> rfl

theorem running (h : m.Stripped n) (hm : m.phase = .running top below) :
    n.phase = .running top.stripped (below.map Frame.stripped) := by
  rw [h.phase_eq, hm]
  rfl

/-- Both runs count a unit of work. -/
theorem counted (h : m.Stripped n) : m.counted.Stripped n.counted := by
  obtain ⟨steps, htally⟩ := h.tally_eq
  refine { h with tally_eq := ⟨steps + 1, ?_⟩ }
  rw [Machine.counted, htally]
  rfl

/-- Both runs turn to other frames. -/
theorem goOn (h : m.Stripped n) (top : Frame) (below : List Frame) :
    (m.goOn top below).Stripped (n.goOn top.stripped (below.map Frame.stripped)) :=
  { h with phase_eq := rfl }

/-- The first run counts a unit of work and passes over what the second run does not have. -/
theorem passed (h : m.Stripped n) (hn : n.phase = (Phase.running top below).stripped) :
    (m.counted.goOn top below).Stripped n :=
  { h with phase_eq := hn }

/-- Both runs enter a block. -/
theorem entered (h : m.Stripped n) (body : Program) (remaining : Nat) (top : Frame)
    (below : List Frame) :
    (m.entered body remaining top below).Stripped
      (n.entered (body.without Instruction.isReserved) remaining top.stripped
        (below.map Frame.stripped)) := by
  obtain ⟨steps, htally⟩ := h.tally_eq
  refine { h with tally_eq := ⟨steps, ?_⟩, phase_eq := rfl }
  rw [Machine.entered, htally]
  rfl

/-- Both runs make the same move. -/
theorem move (h : m.Stripped n) (d : Direction) :
    (n.move d).1 = (m.move d).1 ∧ (m.move d).2.Stripped (n.move d).2 := by
  obtain ⟨_, _, _, _, _⟩ := n
  obtain ⟨rfl, rfl, rfl, ⟨steps, rfl⟩, hphase⟩ := h
  refine ⟨rfl, rfl, rfl, rfl, ⟨steps, ?_⟩, hphase⟩
  unfold Machine.move
  dsimp only
  cases m.walk.landing m.maze d <;> rfl

/-- Both runs give up. -/
theorem giveUp (h : m.Stripped n) : n.giveUp.1 = m.giveUp.1 ∧ m.giveUp.2.Stripped n.giveUp.2 := by
  obtain ⟨_, _, _, _, _⟩ := n
  obtain ⟨rfl, rfl, rfl, htally, -⟩ := h
  exact ⟨rfl, rfl, rfl, rfl, htally, rfl⟩

/-- Both runs end. -/
theorem finish (h : m.Stripped n) (pace : Bool) :
    (n.finish pace).1 = (m.finish pace).1 ∧ (m.finish pace).2.Stripped (n.finish pace).2 := by
  obtain ⟨_, _, _, _, _⟩ := n
  obtain ⟨rfl, rfl, rfl, htally, -⟩ := h
  exact ⟨rfl, rfl, rfl, rfl, htally, rfl⟩

/-- A unit of work of the first run is of no account, or the second run does the same. -/
theorem step (h : m.Stripped n) :
    (m.step.1 = .silent ∧ m.step.2.Stripped n) ∨
      (n.step.1 = m.step.1 ∧ m.step.2.Stripped n.step.2) := by
  have hheld : n.player.strawberries = m.player.strawberries :=
    congrArg Player.strawberries h.player_eq
  have hdone := m.does_step
  generalize m.step = done at hdone ⊢
  cases hdone with
  | @begin p hm =>
    have hn : n.phase = .fresh (p.without Instruction.isReserved) := by
      rw [h.phase_eq, hm]
      rfl
    rw [(Does.begin hn).eq, h.player_eq]
    exact .inr ⟨rfl, { h with phase_eq := rfl }⟩
  | move hm hrest =>
    have hn := h.running hm
    rw [(Does.move hn (Frame.rest_stripped hrest rfl)).eq]
    exact .inr ((h.counted.goOn _ _).move _)
  | @pass top below i rest pace hm hrest hi =>
    have hn := h.running hm
    cases hreserved : i.isReserved with
    | true =>
      rw [Frame.stripped_of_isReserved hrest hreserved] at hn
      cases hi with
      | reserved => exact .inl ⟨rfl, h.passed hn⟩
      | noRounds | unmet => cases hreserved
    | false =>
      rw [(Does.pass hn (Frame.rest_stripped hrest hreserved) (hheld ▸ hi.pruned)).eq]
      exact .inr ⟨rfl, h.counted.goOn _ _⟩
  | enter hm hrest hi hd =>
    have hn := h.running hm
    have hrest := Frame.rest_stripped hrest hi.isReserved
    rw [(Does.enter hn hrest (hheld ▸ hi.pruned) (h.maxDepth_eq ▸ hd)).eq]
    exact .inr ⟨rfl, h.counted.entered _ _ _ _⟩
  | giveUp hm hrest hi hd =>
    have hn := h.running hm
    have hrest := Frame.rest_stripped hrest hi.isReserved
    rw [(Does.giveUp hn hrest (hheld ▸ hi.pruned) (h.maxDepth_eq ▸ hd)).eq]
    exact .inr h.counted.giveUp
  | rewind hm hrest hr =>
    have hn := h.running hm
    rw [(Does.rewind hn (Frame.rest_stripped_of_nil hrest) hr).eq]
    exact .inr ⟨rfl, h.counted.goOn _ _⟩
  | leave hm hrest hr =>
    have hn := h.running hm
    rw [(Does.leave hn (Frame.rest_stripped_of_nil hrest) hr).eq]
    exact .inr ⟨rfl, h.counted.goOn _ _⟩
  | finish hm hrest hr =>
    have hn := h.running hm
    rw [(Does.finish hn (Frame.rest_stripped_of_nil hrest) hr).eq]
    exact .inr (h.counted.finish _)
  | idle hm =>
    have hn : n.isOver = true := by rwa [isOver, h.ending?_eq]
    rw [step_of_isOver hn]
    exact .inr ⟨rfl, h⟩

/-- Whatever the first run has been seen to do, the second has been seen to do in no more units of
work. -/
theorem after (h : m.Stripped n) (k : Nat) :
    ∃ j ≤ k, m.marks k = n.marks j ∧ (m.after k).Stripped (n.after j) := by
  induction k with
  | zero => exact ⟨0, Nat.le_refl 0, rfl, h⟩
  | succ k ih =>
    obtain ⟨j, hj, hmarks, hk⟩ := ih
    rw [marks_succ, after_succ, hmarks]
    rcases hk.step with ⟨hsilent, hnext⟩ | ⟨hsame, hnext⟩
    · refine ⟨j, Nat.le_succ_of_le hj, ?_, hnext⟩
      rw [hsilent]
      exact List.append_nil _
    · refine ⟨j + 1, Nat.succ_le_succ hj, ?_, ?_⟩
      · rw [marks_succ, hsame]
      · rwa [after_succ]

/-- The two runs are seen to do the same, and end alike. -/
theorem last (h : m.Stripped n) : m.trace = n.trace ∧ m.last.Stripped n.last := by
  obtain ⟨j, -, hmarks, hlast⟩ := h.after m.work
  have hover : (n.after j).isOver = true := by
    rw [isOver, hlast.ending?_eq]
    exact isOver_last m
  rw [last_of_isOver_after hover] at hlast
  rw [trace_of_isOver_after hover] at hmarks
  exact ⟨hmarks, hlast⟩

end Stripped

/-- Reserved instructions leave no trace. A run of a program and a run of what is left of it without
the reserved instructions, at any level and with all that is inside them, show the same events and
pauses in the same order, end alike, leave the same player, pick up the same strawberries in the
same order, and count the same save for the units of work. -/
theorem run_without_reserved (p : Program) (maze : Maze) (player : Player) (maxDepth : Nat) :
    let whole := start p maze player maxDepth
    let bare := start (p.without Instruction.isReserved) maze player maxDepth
    whole.trace = bare.trace ∧
      whole.last.ending? = bare.last.ending? ∧
      whole.last.player = bare.last.player ∧
      whole.last.walk.taken.toList = bare.last.walk.taken.toList ∧
      ∃ steps, bare.last.tally = { whole.last.tally with steps } := by
  intro whole bare
  have hstart : whole.Stripped bare := ⟨rfl, rfl, rfl, ⟨0, rfl⟩, rfl⟩
  obtain ⟨htrace, hlast⟩ := hstart.last
  refine ⟨htrace, hlast.ending?_eq.symm, hlast.player_eq.symm, ?_, hlast.tally_eq⟩
  rw [hlast.walk_eq]

end Machine

end Labyrinth
