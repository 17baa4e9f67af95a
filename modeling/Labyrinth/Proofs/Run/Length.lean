import Mathlib.Algebra.Group.Nat.Defs
import Labyrinth.Instruction.Sample
import Labyrinth.Proofs.Run.Depth
import Labyrinth.Proofs.Run.Recording

/-!
# How long a run is

The work of a program bounds the units of work of its runs. Only a condition that is not met leaves
some of it undone: without conditions every unit of work uses up just one, and what a unit adds to
the moves made it takes from the moves left (`Machine.spends_step`). So the length of a run that is
carried through and the number of its moves are read off the program, whatever the maze and whoever
the player.
-/

namespace Labyrinth

mutual

/-- The moves that an instruction makes when it is carried through and every condition is met. -/
def Instruction.moves : Instruction → Nat
  | .move _ => 1
  | .block (.times n) body => n.toNat * Program.moves body
  | .block (.atLeast _) body => Program.moves body
  | .block .untilGoal _ | .block .whileHolding _ | .block .function _ => 0
  | .call | .noop => 0

/-- The moves that a program makes when it is carried through and every condition is met. -/
def Program.moves : Program → Nat
  | [] => 0
  | i :: rest => i.moves + Program.moves rest

end

namespace Instruction

variable {held : Nat} {i : Instruction}

/-- To pass over an instruction that is no condition is all the work of it, and makes no move. -/
theorem Passes.work_eq {pace : Bool} (h : i.Passes held pace) (hi : i.isCondition = false) :
    i.work = 1 ∧ i.moves = 0 := by
  cases h with
  | noRounds body h => simp [work, moves, h]
  | unmet body h => cases hi
  | reserved h =>
    cases i with
    | block header body =>
      cases header with
      | times | atLeast => cases h
      | untilGoal | whileHolding | function => exact ⟨rfl, rfl⟩
    | move d => cases h
    | call | noop => exact ⟨rfl, rfl⟩

/-- The work of a block that is entered is to enter it and to take every round to its end. -/
theorem Enters.work_eq {body : Program} {remaining : Nat} (h : i.Enters held body remaining) :
    i.work = 1 + (remaining + 1) * (programWork body + 1) ∧
      i.moves = (remaining + 1) * body.moves := by
  cases h with
  | loop body h => rw [work, moves, h]; exact ⟨rfl, rfl⟩
  | condition body h =>
    rw [work, moves]
    omega

/-- Inside a block of a program that is free of some instructions there are none of them. -/
theorem Enters.free_body {body rest : Program} {remaining : Nat} {drop : Instruction → Bool}
    (h : i.Enters held body remaining) (hfree : Program.Free drop (i :: rest)) :
    body.Free drop := by
  cases h with
  | loop | condition => exact fun j hj => hfree j (.inside _ _ hj)

theorem moves_repeated (count : Int) (body : Program) :
    (repeated count body).moves = min count.toNat 4294967295 * body.moves := by
  rw [repeated, moves, clampCount_toNat]

/-- A loop, if it has any rounds, reaches one level deeper than what is inside. -/
theorem reach_repeated (count : Int) (body : Program) :
    (repeated count body).reach = if count.toNat = 0 then 0 else 1 + body.reach := by
  rw [repeated, reach, clampCount_toNat]
  congr 1
  simp

/-- A loop as the only instruction is free of conditions if what is inside is. -/
theorem free_repeated {count : Int} {body rest : Program} (hbody : body.Free isCondition)
    (hrest : Program.Free isCondition rest) :
    Program.Free isCondition (repeated count body :: rest) := by
  intro i hi
  rcases occursIn_block.mp hi with rfl | hi | hi
  · rfl
  · exact hbody i hi
  · exact hrest i hi

end Instruction

namespace Program

open Instruction

/-- A doubling nest makes its two moves once for each of the ways through it. -/
theorem moves_nestedTwice (depth : Nat) : (nestedTwice depth).moves = 2 ^ (depth + 1) := by
  induction depth with
  | zero => rfl
  | succ depth ih =>
    have hnested : nestedTwice (depth + 1) = [repeated 2 (nestedTwice depth)] := rfl
    rw [hnested, moves, moves_repeated, ih, moves, Nat.pow_succ 2 (depth + 1), Nat.mul_comm]
    rfl

theorem reach_nestedTwice (depth : Nat) : (nestedTwice depth).reach = depth := by
  induction depth with
  | zero => rfl
  | succ depth ih =>
    have hnested : nestedTwice (depth + 1) = [repeated 2 (nestedTwice depth)] := rfl
    rw [hnested, reach, reach_repeated, if_neg (by decide), ih, reach]
    omega

theorem free_nestedTwice (depth : Nat) : (nestedTwice depth).Free isCondition := by
  induction depth with
  | zero => exact without_eq_self_iff.mp rfl
  | succ depth ih => exact free_repeated ih (fun _ hi => absurd hi not_occursIn_nil)

/-- A sweep goes along two rows, and down after each, half as often as there are rows. -/
theorem moves_sweep (width height : UInt32) :
    (sweep width.toNat height.toNat).moves = height.toNat / 2 * 2 * max width.toNat 1 := by
  have hwidth := width.toNat_lt
  have hheight := height.toNat_lt
  simp only [sweep, moves, moves_repeated, Instruction.moves, Int.toNat_natCast]
  rw [Nat.min_eq_left (by omega), Nat.min_eq_left (by omega), Nat.mul_assoc, Nat.add_zero]
  congr 1
  omega

/-- These are no more than a counter of moves can hold. -/
theorem moves_sweep_lt (width height : UInt32) :
    (sweep width.toNat height.toNat).moves < 2 ^ 64 := by
  have hwidth := width.toNat_lt
  have hheight := height.toNat_lt
  rw [moves_sweep, show 2 ^ 64 = 2 ^ 32 * 2 ^ 32 from rfl]
  exact Nat.mul_lt_mul_of_lt_of_lt (by omega) (by omega)

theorem reach_sweep_le (width height : Nat) : (sweep width height).reach ≤ 2 := by
  simp only [sweep, reach, reach_repeated, Instruction.reach]
  split
  · decide
  · split <;> decide

theorem free_sweep (width height : Nat) : (sweep width height).Free isCondition := by
  have hmove {d : Direction} {rest : Program} (h : rest.Free isCondition) :
      Free isCondition (.move d :: rest) := by
    intro i hi
    rcases (occursIn_cons rfl).mp hi with rfl | hi
    · rfl
    · exact h i hi
  have hnil : Free isCondition [] := fun _ hi => absurd hi not_occursIn_nil
  exact free_repeated
    (free_repeated (hmove hnil) (hmove (free_repeated (hmove hnil) (hmove hnil)))) hnil

end Program

namespace Frame

/-- The moves up to the end of a block. -/
def movesLeft (f : Frame) : Nat := f.rest.moves + f.remaining * f.body.moves

/-- The moves up to the end of several blocks. -/
def stackMoves : List Frame → Nat
  | [] => 0
  | f :: fs => f.movesLeft + stackMoves fs

theorem stackMoves_cons (f : Frame) (fs : List Frame) :
    stackMoves (f :: fs) = f.movesLeft + stackMoves fs := rfl

/-- Neither what is left of a program in progress nor another round has conditions. -/
def Steady (f : Frame) : Prop :=
  f.body.Free Instruction.isCondition ∧ f.rest.Free Instruction.isCondition

variable {f : Frame} {i : Instruction} {rest : Program}

/-- The first instruction has its share of the work and of the moves. -/
theorem work_of_cons (h : f.rest = i :: rest) :
    f.work = i.work + ({ f with rest := rest } : Frame).work ∧
      f.movesLeft = i.moves + ({ f with rest := rest } : Frame).movesLeft := by
  simp only [work, movesLeft, h, Instruction.programWork, Program.moves]
  omega

/-- Another round has its share of the work and of the moves. -/
theorem work_of_round {remaining : Nat} (h : f.rest = []) (hr : f.remaining = remaining + 1) :
    f.work = ({ f with rest := f.body, remaining := remaining } : Frame).work + 1 ∧
      f.movesLeft = ({ f with rest := f.body, remaining := remaining } : Frame).movesLeft := by
  simp only [work, movesLeft, h, hr, Instruction.programWork, Program.moves, Nat.succ_mul]
  omega

/-- A block that is entered has its first round and the others before it. -/
theorem work_of_entered (body : Program) (remaining depth : Nat) :
    (⟨body, body, remaining, depth, true⟩ : Frame).work =
        (remaining + 1) * (Instruction.programWork body + 1) ∧
      (⟨body, body, remaining, depth, true⟩ : Frame).movesLeft = (remaining + 1) * body.moves := by
  simp only [work, movesLeft, Nat.succ_mul]
  omega

/-- Nothing but the end itself is left at the end of the last round. -/
theorem work_of_end (h : f.rest = []) (hr : f.remaining = 0) : f.work = 1 ∧ f.movesLeft = 0 := by
  simp [work, movesLeft, h, hr, Instruction.programWork, Program.moves]

theorem Steady.head (h : f.Steady) (hrest : f.rest = i :: rest) : i.isCondition = false :=
  h.2 i (hrest ▸ .head rest)

theorem Steady.tail (h : f.Steady) (hrest : f.rest = i :: rest) :
    ({ f with rest := rest } : Frame).Steady :=
  ⟨h.1, fun j hj => h.2 j (hrest ▸ .tail i hj)⟩

end Frame

/-- No condition is left to be looked at. -/
def Phase.Steady : Phase → Prop
  | .fresh p => p.Free Instruction.isCondition
  | .running top below => ∀ f ∈ top :: below, f.Steady
  | .over _ => True

namespace Machine

/-- The moves up to the end of the run. -/
def movesLeft (m : Machine) : Nat :=
  match m.phase with
  | .fresh p => p.moves
  | .running top below => Frame.stackMoves (top :: below)
  | .over _ => 0

/-- A unit of work between two machines without conditions, and what it tells: it uses up one of the
work left, and the moves that it tells of are those that are no longer left. -/
structure Spends (m : Machine) (told : List Event) (m' : Machine) : Prop where
  /-- There are no conditions afterwards. -/
  steady : m'.phase.Steady
  /-- One unit of work is used up. -/
  work_eq : m'.work + 1 = m.work
  /-- A move told of is no longer left. -/
  moves_eq : told.countP Event.isMove + m'.movesLeft = m.movesLeft

section

variable {m : Machine} {top : Frame} {below : List Frame}

theorem work_of_running (h : m.phase = .running top below) :
    m.work = top.work + Frame.stackWork below := by
  rw [work, h]

theorem movesLeft_of_running (h : m.phase = .running top below) :
    m.movesLeft = top.movesLeft + Frame.stackMoves below := by
  rw [movesLeft, h]
  rfl

/-- Nothing is left of a run that is over. -/
theorem left_of_isOver (h : m.isOver = true) : m.work = 0 ∧ m.movesLeft = 0 := by
  match hphase : m.phase with
  | .over e => rw [work, movesLeft, hphase]; exact ⟨rfl, rfl⟩
  | .fresh p => simp [isOver, ending?, hphase] at h
  | .running top below => simp [isOver, ending?, hphase] at h

/-- A run is over exactly if no work is left. -/
theorem isOver_iff_work : m.isOver = true ↔ m.work = 0 := by
  refine ⟨fun hover => (left_of_isOver hover).1, fun hzero => ?_⟩
  cases h : m.isOver with
  | true => rfl
  | false =>
    have := work_step_lt h
    omega

/-- A move is told of once. -/
theorem countP_isMove_move (m : Machine) (d : Direction) :
    (m.move d).1.events.countP Event.isMove = 1 := by
  unfold move
  dsimp only
  cases m.walk.landing m.maze d <;> rfl

/-- A unit of work that turns from some programs in progress to others costs what these leave less
of. -/
theorem spends_of_running {m' : Machine} {next : Frame} {others : List Frame} {told : List Event}
    (made : Nat) (h : m.phase = .running top below) (h' : m'.phase = .running next others)
    (hsteady : ∀ f ∈ next :: others, f.Steady)
    (hwork : next.work + Frame.stackWork others + 1 = top.work + Frame.stackWork below)
    (htold : told.countP Event.isMove = made)
    (hmoves : made + (next.movesLeft + Frame.stackMoves others) =
      top.movesLeft + Frame.stackMoves below) : m.Spends told m' := by
  refine ⟨?_, ?_, ?_⟩
  · rw [h']
    exact hsteady
  · rw [work_of_running h', work_of_running h, hwork]
  · rw [movesLeft_of_running h', movesLeft_of_running h, htold, hmoves]

/-- To begin a run is one unit of its work. -/
theorem spends_begin {p : Program} (h : m.phase = .fresh p)
    (hfree : p.Free Instruction.isCondition) :
    m.Spends [.started m.player] (m.goOn ⟨p, p, 0, 0, false⟩ []) := by
  refine ⟨?_, ?_, ?_⟩
  · intro f hf
    obtain rfl := List.mem_singleton.mp hf
    exact ⟨hfree, hfree⟩
  · simp [work, h, goOn, Frame.work, Frame.stackWork]
  · simp [movesLeft, h, goOn, Frame.movesLeft, Frame.stackMoves, Event.isMove]

/-- Without conditions, a unit of work that does not give up uses up one of the work left, and each
move that it tells of is one of the moves left. -/
theorem spends_step (h : m.phase.Steady) (hgoing : m.isOver = false)
    (hkept : m.step.2.gaveUp = false) : m.Spends m.step.1.events m.step.2 := by
  have hdone := m.does_step
  generalize m.step = done at hdone hkept ⊢
  have hall {top : Frame} {below : List Frame} (hm : m.phase = .running top below) :
      top.Steady ∧ ∀ f ∈ below, f.Steady := by
    rw [hm] at h
    exact List.forall_mem_cons.mp h
  have hnext {top : Frame} {below : List Frame} {i : Instruction} {rest : Program}
      (hm : m.phase = .running top below) (hrest : top.rest = i :: rest) :
      ∀ f ∈ ({ top with rest := rest } : Frame) :: below, f.Steady :=
    List.forall_mem_cons.mpr ⟨(hall hm).1.tail hrest, (hall hm).2⟩
  cases hdone with
  | begin hm =>
    rw [hm] at h
    exact spends_begin hm h
  | @move top below d rest hm hrest =>
    have htop := top.work_of_cons hrest
    rw [Instruction.work, Instruction.moves] at htop
    exact spends_of_running 1 hm rfl (hnext hm hrest) (by omega) (countP_isMove_move _ d) (by omega)
  | @pass top below i rest pace hm hrest hi =>
    have htop := top.work_of_cons hrest
    have hshare := hi.work_eq ((hall hm).1.head hrest)
    exact spends_of_running 0 hm rfl (hnext hm hrest) (by omega) rfl (by omega)
  | @enter top below i rest body remaining hm hrest hi hd =>
    have htop := top.work_of_cons hrest
    have hshare := hi.work_eq
    have hfree : Program.Free Instruction.isCondition (i :: rest) := hrest ▸ (hall hm).1.2
    have hbody : body.Free Instruction.isCondition := hi.free_body hfree
    have hphase : (m.counted.entered body remaining { top with rest := rest } below).phase =
        .running ⟨body, body, remaining, top.depth + 1, true⟩
          ({ top with rest := rest } :: below) := rfl
    have hround := Frame.work_of_entered body remaining (top.depth + 1)
    refine spends_of_running 0 hm hphase
      (List.forall_mem_cons.mpr ⟨⟨hbody, hbody⟩, hnext hm hrest⟩) ?_ rfl ?_
    · rw [hround.1, Frame.stackWork]
      omega
    · rw [hround.2, Frame.stackMoves_cons]
      omega
  | giveUp => cases hkept
  | @rewind top below remaining hm hrest hr =>
    have htop := top.work_of_round hrest hr
    have hbody := (hall hm).1.1
    exact spends_of_running 0 hm rfl
      (List.forall_mem_cons.mpr ⟨⟨hbody, hbody⟩, (hall hm).2⟩) (by omega) rfl (by omega)
  | @leave top next below hm hrest hr =>
    have htop := top.work_of_end hrest hr
    refine spends_of_running 0 hm rfl (hall hm).2 ?_ rfl ?_
    · rw [Frame.stackWork]
      omega
    · rw [Frame.stackMoves_cons, htop.2]
  | @finish top hm hrest hr =>
    have htop := top.work_of_end hrest hr
    have hstill : (m.counted.finish top.pace).1.events.countP Event.isMove = 0 :=
      List.countP_eq_zero.mpr fun e he => Bool.eq_false_iff.mp (not_isMove_of_mem_finish he)
    refine ⟨trivial, ?_, ?_⟩
    · rw [work_finish, work_of_running hm, htop.1, Frame.stackWork]
    · rw [movesLeft_of_running hm, htop.2, Frame.stackMoves, hstill]
      rfl
  | idle hover => rw [hover] at hgoing; cases hgoing

theorem isOver_of_gaveUp (h : m.gaveUp = true) : m.isOver = true := by
  unfold gaveUp at h
  split at h
  · rename_i hending
    rw [isOver, hending]
    rfl
  · cases h

/-- A run that does not end by giving up never gives up. -/
theorem gaveUp_after (h : m.last.gaveUp = false) (n : Nat) : (m.after n).gaveUp = false := by
  rw [← Bool.not_eq_true] at h ⊢
  intro hgave
  rw [last_of_isOver_after (isOver_of_gaveUp hgave)] at hgave
  exact h hgave

/-- Every unit of work of a run that is under way is counted. -/
theorem steps_step (h : m.phase = .running top below) :
    m.step.2.tally.steps = m.tally.steps + 1 := by
  have hdone := m.does_step
  generalize m.step = done at hdone ⊢
  cases hdone with
  | begin hm => rw [hm] at h; cases h
  | move =>
    unfold move
    dsimp only
    generalize Walk.landing _ _ _ = landing
    cases landing <;> rfl
  | pass | enter | giveUp | rewind | leave | finish => rfl
  | idle hover => simp [isOver, ending?, h] at hover

end

section

variable (p : Program) (maze : Maze) (player : Player) (maxDepth : Nat)

/-- All units of work but the first are counted. -/
theorem steps_after {n : Nat} (hgoing : ((start p maze player maxDepth).after n).isOver = false) :
    ((start p maze player maxDepth).after (n + 1)).tally.steps = UInt64.ofNat n := by
  induction n with
  | zero => rfl
  | succ n ih =>
    have hbefore := ih (going_after_of_le hgoing (Nat.le_succ n))
    match hphase : ((start p maze player maxDepth).after (n + 1)).phase with
    | .running top below =>
      rw [after_succ, steps_step hphase, hbefore, UInt64.ofNat_add]
      rfl
    | .fresh q =>
      rw [after_succ] at hphase
      exact absurd hphase (phase_step_ne_fresh _ q)
    | .over e => simp [isOver, ending?, hphase] at hgoing

variable {p}

/-- Without conditions, a run that is not given up spends its work unit by unit and tells of its
moves one by one. -/
theorem work_after (hfree : p.Free Instruction.isCondition)
    (hkept : (start p maze player maxDepth).last.gaveUp = false) {n : Nat}
    (hn : n ≤ Instruction.programWork p + 2) :
    let m := (start p maze player maxDepth).after n
    m.phase.Steady ∧ m.work + n = Instruction.programWork p + 2 ∧
      ((start p maze player maxDepth).events n).countP Event.isMove + m.movesLeft = p.moves := by
  induction n with
  | zero => exact ⟨hfree, rfl, Nat.zero_add _⟩
  | succ n ih =>
    obtain ⟨hsteady, hwork, hmoves⟩ := ih (by omega)
    have hgoing : ((start p maze player maxDepth).after n).isOver = false := by
      rw [← Bool.not_eq_true, isOver_iff_work]
      omega
    have hnext := gaveUp_after hkept (n + 1)
    rw [after_succ] at hnext ⊢
    have hspends := spends_step hsteady hgoing hnext
    have hspent := hspends.work_eq
    refine ⟨hspends.steady, by omega, ?_⟩
    rw [events_succ, List.countP_append, Nat.add_assoc, hspends.moves_eq, hmoves]

/-- Without conditions, whether a run is given up depends on the program and the limit alone. -/
theorem gaveUp_last_iff (hfree : p.Free Instruction.isCondition) :
    (start p maze player maxDepth).last.gaveUp = true ↔ maxDepth < p.reach := by
  constructor
  · exact ((guarded_start p maze player maxDepth).after _).lt_of_gaveUp
  · intro hreach
    rw [gaveUp_last]
    exact Meaning.tooDeep_program hfree (Nat.zero_le _) (by simpa using hreach) _

/-- Without conditions, a run that is not given up is over just when its work is done. -/
theorem isOver_after_iff (hfree : p.Free Instruction.isCondition)
    (hkept : (start p maze player maxDepth).last.gaveUp = false) (n : Nat) :
    ((start p maze player maxDepth).after n).isOver = true ↔ Instruction.programWork p + 2 ≤ n := by
  constructor
  · intro hover
    rcases Nat.lt_or_ge n (Instruction.programWork p + 2) with hearly | hdone
    · have hwork := (work_after maze player maxDepth hfree hkept (Nat.le_of_lt hearly)).2.1
      rw [isOver_iff_work.mp hover] at hwork
      omega
    · exact hdone
  · exact fun hdone => isOver_after_of_work_le hdone

/-- It has told of all its moves then. -/
theorem countP_isMove_stream (hfree : p.Free Instruction.isCondition)
    (hkept : (start p maze player maxDepth).last.gaveUp = false) :
    (start p maze player maxDepth).stream.countP Event.isMove = p.moves := by
  have hmoves := (work_after maze player maxDepth hfree hkept (Nat.le_refl _)).2.2
  have hover := isOver_last (start p maze player maxDepth)
  change (start p maze player maxDepth).stream.countP Event.isMove +
    (start p maze player maxDepth).last.movesLeft = p.moves at hmoves
  rwa [(left_of_isOver hover).2, Nat.add_zero] at hmoves

/-- A run counts the moves that it tells of. -/
theorem moves_last : (start p maze player maxDepth).last.tally.moves =
    UInt64.ofNat ((start p maze player maxDepth).stream.countP Event.isMove) :=
  (counted_after p maze player maxDepth _).1

/-- All units of work but the first are counted, up to the last. -/
theorem steps_last (hfree : p.Free Instruction.isCondition)
    (hkept : (start p maze player maxDepth).last.gaveUp = false) :
    (start p maze player maxDepth).last.tally.steps =
      UInt64.ofNat (Instruction.programWork p + 1) := by
  refine steps_after p maze player maxDepth (n := Instruction.programWork p + 1) ?_
  rw [← Bool.not_eq_true, isOver_after_iff maze player maxDepth hfree hkept]
  omega

end

/-- The length of a run is read off its program. Every run is over after as many units of work as
its program has, with one to begin it and one to end it. Without conditions, a run that is not given
up is over after just so many; all of them but the first are counted, and the moves that are told
of, and counted, are those of the program, as far as the counters go before they begin again. On any
other maze and for any other player the run is not given up either and tells of as many moves. So a
sweep goes along and down two rows at a time, and a doubling nest makes two moves at its bottom,
whatever the maze, as long as the limit of depth allows it. -/
theorem length_of_run_is_static :
    (∀ (p : Program) (maze : Maze) (player : Player) (maxDepth n : Nat),
      Instruction.programWork p + 2 ≤ n →
        ((start p maze player maxDepth).after n).isOver = true) ∧
    (∀ (p : Program) (maze : Maze) (player : Player) (maxDepth : Nat),
      let m := start p maze player maxDepth
      p.Free Instruction.isCondition → m.last.gaveUp = false →
        (∀ n, (m.after n).isOver = true ↔ Instruction.programWork p + 2 ≤ n) ∧
        m.last.tally.steps.toNat = (Instruction.programWork p + 1) % 2 ^ 64 ∧
        m.last.tally.moves.toNat = p.moves % 2 ^ 64 ∧ m.stream.countP Event.isMove = p.moves ∧
        ∀ (maze' : Maze) (player' : Player),
          let m' := start p maze' player' maxDepth
          m'.last.gaveUp = false ∧
            m'.stream.countP Event.isMove = m.stream.countP Event.isMove) ∧
    (∀ (width height : UInt32) (maze : Maze) (player : Player) (maxDepth : Nat),
      let m := start (.sweep width.toNat height.toNat) maze player maxDepth
      (2 ≤ maxDepth → m.last.gaveUp = false) ∧
        (m.last.gaveUp = false →
          m.stream.countP Event.isMove = height.toNat / 2 * 2 * max width.toNat 1 ∧
            m.last.tally.moves.toNat = height.toNat / 2 * 2 * max width.toNat 1)) ∧
    ∀ (depth : Nat) (maze : Maze) (player : Player) (maxDepth : Nat),
      let m := start (.nestedTwice depth) maze player maxDepth
      (depth ≤ maxDepth → m.last.gaveUp = false) ∧
        (m.last.gaveUp = false →
          m.stream.countP Event.isMove = 2 ^ (depth + 1) ∧
            m.last.tally.moves.toNat = 2 ^ (depth + 1) % 2 ^ 64) := by
  have hwithin {p : Program} (hfree : p.Free Instruction.isCondition) (maze : Maze)
      (player : Player) {maxDepth : Nat} (hreach : p.reach ≤ maxDepth) :
      (start p maze player maxDepth).last.gaveUp = false := by
    rw [← Bool.not_eq_true, gaveUp_last_iff maze player maxDepth hfree]
    omega
  have hcounted {p : Program} (hfree : p.Free Instruction.isCondition) {maze : Maze}
      {player : Player} {maxDepth : Nat}
      (hkept : (start p maze player maxDepth).last.gaveUp = false) :
      (start p maze player maxDepth).last.tally.moves.toNat = p.moves % 2 ^ 64 := by
    rw [moves_last, countP_isMove_stream maze player maxDepth hfree hkept, UInt64.toNat_ofNat']
  refine ⟨fun p maze player maxDepth n hn => isOver_after_of_work_le hn, ?_, ?_, ?_⟩
  · intro p maze player maxDepth m hfree hkept
    have htold : m.stream.countP Event.isMove = p.moves :=
      countP_isMove_stream maze player maxDepth hfree hkept
    refine ⟨isOver_after_iff maze player maxDepth hfree hkept, ?_, hcounted hfree hkept, htold, ?_⟩
    · rw [steps_last maze player maxDepth hfree hkept, UInt64.toNat_ofNat']
    intro maze' player' m'
    have hreach : p.reach ≤ maxDepth := by
      rw [← Bool.not_eq_true, gaveUp_last_iff maze player maxDepth hfree] at hkept
      omega
    have hkept' : m'.last.gaveUp = false := hwithin hfree maze' player' hreach
    refine ⟨hkept', ?_⟩
    rw [htold, countP_isMove_stream maze' player' maxDepth hfree hkept']
  · intro width height maze player maxDepth m
    have hfree := Program.free_sweep width.toNat height.toNat
    have hreach := Program.reach_sweep_le width.toNat height.toNat
    refine ⟨fun hdepth => hwithin hfree maze player (by omega), fun hkept => ⟨?_, ?_⟩⟩
    · rw [countP_isMove_stream maze player maxDepth hfree hkept, Program.moves_sweep]
    · rw [hcounted hfree hkept, Nat.mod_eq_of_lt (Program.moves_sweep_lt width height),
        Program.moves_sweep]
  · intro depth maze player maxDepth m
    have hfree := Program.free_nestedTwice depth
    refine ⟨fun hdepth => hwithin hfree maze player (by rwa [Program.reach_nestedTwice]), ?_⟩
    intro hkept
    rw [hcounted hfree hkept, countP_isMove_stream maze player maxDepth hfree hkept,
      Program.moves_nestedTwice]
    exact ⟨rfl, rfl⟩

/-- A loop of three rounds, with a loop of no rounds and a reserved block inside, is over after
fifteen units of work and makes three moves, here and on any other maze. -/
theorem length_of_run_of_loop :
    let p : Program := [.repeated 3 [.move .right, .repeated 0 [.move .left],
      .block .function [.move .down]]]
    let maze : Maze := ⟨.blank 3 1, Layout.fault?_eq_none_iff.mp (by decide)⟩
    let player := Player.atStart ⟨0, 0⟩
    let m := start p maze player 1
    p.Free Instruction.isCondition ∧ m.last.gaveUp = false ∧
      (∀ n, (m.after n).isOver = true ↔ 15 ≤ n) ∧ m.last.tally.steps.toNat = 14 ∧
      m.last.tally.moves.toNat = 3 ∧
      ∀ (maze' : Maze) (player' : Player),
        (start p maze' player' 1).stream.countP Event.isMove = 3 := by
  intro p maze player m
  have hfree : p.Free Instruction.isCondition := Program.without_eq_self_iff.mp (by decide)
  have hkept : m.last.gaveUp = false := by
    rw [← Bool.not_eq_true, gaveUp_last_iff maze player 1 hfree]
    decide
  obtain ⟨-, hall, -, -⟩ := length_of_run_is_static
  obtain ⟨hover, hsteps, hmoves, htold, hothers⟩ := hall p maze player 1 hfree hkept
  refine ⟨hfree, hkept, hover, hsteps, hmoves, fun maze' player' => ?_⟩
  exact (hothers maze' player').2.trans htold

end Machine

end Labyrinth
