import Mathlib.Algebra.Group.Nat.Defs
import Labyrinth.Proofs.Run.Stages

/-!
# The events are a complete record

Whoever knows the player at first and hears the events of a run, one after another, knows where the
player stands and what the player holds at any time, which strawberries were picked up, and what was
counted. `Machine.Records` is what the events between two machines say of them; a unit of work tells
just that, and the records of two stretches of a run make one.
-/

namespace Labyrinth

namespace Player

/-- The player after an event, for a reader who knew the player before it. -/
def hear (p : Player) : Event → Player
  | .started q | .finished q => q
  | .step pos held | .collected pos held | .lifeLost pos held =>
    { p with position := pos, strawberries := held }
  | .sentBack pos => { p with position := pos }
  | .reachedGoal _ | .log _ => p

/-- The player after several events. -/
def hearAll (p : Player) (events : List Event) : Player := events.foldl hear p

theorem hearAll_append (p : Player) (told new : List Event) :
    p.hearAll (told ++ new) = (p.hearAll told).hearAll new :=
  List.foldl_append

end Player

namespace Event

/-- An event that tells of a strawberry picked up. -/
def isCollected : Event → Bool
  | collected .. => true
  | _ => false

/-- An event that tells of a strawberry taken by a hazard. -/
def isLifeLost : Event → Bool
  | lifeLost .. => true
  | _ => false

/-- An event that tells of a player sent back. -/
def isSentBack : Event → Bool
  | sentBack _ => true
  | _ => false

theorem collectedPositions_append (told new : List Event) :
    collectedPositions (told ++ new) = collectedPositions told ++ collectedPositions new :=
  List.filterMap_append

theorem isMove_of_isCollected (e : Event) (h : e.isCollected = true) : e.isMove = true := by
  cases e with
  | collected => rfl
  | started | step | lifeLost | sentBack | reachedGoal | log | finished => cases h

theorem isMove_of_isLifeLost (e : Event) (h : e.isLifeLost = true) : e.isMove = true := by
  cases e with
  | lifeLost => rfl
  | started | step | collected | sentBack | reachedGoal | log | finished => cases h

/-- A kind of move is as often told of as before if no more moves are told of. -/
theorem countP_append_of_not_isMove {kind : Event → Bool} (told : List Event) {new : List Event}
    (hkind : ∀ e, kind e = true → e.isMove = true) (hnew : ∀ e ∈ new, e.isMove = false) :
    (told ++ new).countP kind = told.countP kind := by
  have hnone : new.countP kind = 0 := by
    rw [List.countP_eq_zero]
    intro e he hk
    have hmove := hkind e hk
    rw [hnew e he] at hmove
    cases hmove
  rw [List.countP_append, hnone, Nat.add_zero]

/-- A plain step that leaves a player where the player was. -/
def isStall (p : Player) : Event → Bool
  | step pos _ => pos = p.position
  | _ => false

/-- The number of plain steps that leave the player, as known from the events before, where the
player was. -/
def stalls (p : Player) : List Event → Nat
  | [] => 0
  | e :: events => (if e.isStall p then 1 else 0) + stalls (p.hear e) events

theorem stalls_append (p : Player) (told new : List Event) :
    stalls p (told ++ new) = stalls p told + stalls (p.hearAll told) new := by
  induction told generalizing p with
  | nil => simp [stalls, Player.hearAll]
  | cons e told ih =>
    rw [List.cons_append, stalls, stalls, ih, Nat.add_assoc]
    rfl

end Event

namespace Walk

/-- The event of a move tells how the player is after it. -/
theorem hear_event (w : Walk) (d : Direction) (l : Landing) :
    w.player.hear (l.event (w.after d l).player) = (w.after d l).player := by
  cases l <;> rfl

/-- A plain step stays where it was exactly if the move was blocked. -/
theorem isStall_event (w : Walk) (d : Direction) (l : Landing) :
    (l.event (w.after d l).player).isStall w.player = (l == .blocked) := by
  cases l with
  | free => simp [Landing.event, after, Event.isStall, Position.step_ne]
  | blocked => simp [Landing.event, after, Event.isStall]
  | reward | lifeLost | sentBack => rfl

/-- A strawberry that is picked up comes last. -/
theorem Lands.taken_after {w : Walk} {m : Maze} {d : Direction} {l : Landing} (h : w.Lands m d l) :
    (w.after d l).taken.toList =
      w.taken.toList ++ Event.collectedPositions [l.event (w.after d l).player] := by
  cases h with
  | reward walkable reward fresh =>
    exact OrderedSet.toList_insert_of_not_mem fresh
  | blocked | lifeLost | sentBack | free => exact (List.append_nil _).symm

end Walk

/-- A move is counted by what its event is. -/
theorem Tally.countMove_eq (t : Tally) (l : Landing) (p : Player) :
    t.countMove l =
      { t with
        moves := t.moves + UInt64.ofNat ([l.event p].countP Event.isMove)
        blockedMoves := t.blockedMoves + UInt64.ofNat (if l == .blocked then 1 else 0)
        collected := t.collected + UInt32.ofNat ([l.event p].countP Event.isCollected)
        livesLost := t.livesLost + UInt32.ofNat ([l.event p].countP Event.isLifeLost)
        resets := t.resets + UInt32.ofNat ([l.event p].countP Event.isSentBack) } := by
  cases l <;>
    simp [countMove, Landing.event, Event.isMove, Event.isCollected, Event.isLifeLost,
      Event.isSentBack]

namespace Machine

/-- What the events between two machines of a run say of them. -/
structure Records (m : Machine) (told : List Event) (m' : Machine) : Prop where
  /-- Heard one after another they tell how the player is. -/
  player_eq : m.player.hearAll told = m'.player
  /-- They tell of the strawberries picked up, in order. -/
  taken_eq : m'.walk.taken.toList = m.walk.taken.toList ++ Event.collectedPositions told
  /-- They tell of every move. -/
  moves_eq : m'.tally.moves = m.tally.moves + UInt64.ofNat (told.countP Event.isMove)
  /-- A plain step that changes no position tells of a move that was blocked. -/
  blockedMoves_eq : m'.tally.blockedMoves =
    m.tally.blockedMoves + UInt64.ofNat (Event.stalls m.player told)
  /-- They tell of every strawberry picked up. -/
  collected_eq : m'.tally.collected =
    m.tally.collected + UInt32.ofNat (told.countP Event.isCollected)
  /-- They tell of every strawberry taken by a hazard. -/
  livesLost_eq : m'.tally.livesLost =
    m.tally.livesLost + UInt32.ofNat (told.countP Event.isLifeLost)
  /-- They tell of every time the player was sent back. -/
  resets_eq : m'.tally.resets = m.tally.resets + UInt32.ofNat (told.countP Event.isSentBack)

namespace Records

variable {m m' m'' : Machine} {told new : List Event}

/-- The records of two stretches of a run make one. -/
theorem trans (h : Records m told m') (h' : Records m' new m'') : Records m (told ++ new) m'' where
  player_eq := by rw [Player.hearAll_append, h.player_eq, h'.player_eq]
  taken_eq := by
    rw [h'.taken_eq, h.taken_eq, List.append_assoc, Event.collectedPositions_append]
  moves_eq := by
    rw [h'.moves_eq, h.moves_eq, List.countP_append, UInt64.ofNat_add, UInt64.add_assoc]
  blockedMoves_eq := by
    rw [h'.blockedMoves_eq, h.blockedMoves_eq, Event.stalls_append, h.player_eq, UInt64.ofNat_add,
      UInt64.add_assoc]
  collected_eq := by
    rw [h'.collected_eq, h.collected_eq, List.countP_append, UInt32.ofNat_add, UInt32.add_assoc]
  livesLost_eq := by
    rw [h'.livesLost_eq, h.livesLost_eq, List.countP_append, UInt32.ofNat_add, UInt32.add_assoc]
  resets_eq := by
    rw [h'.resets_eq, h.resets_eq, List.countP_append, UInt32.ofNat_add, UInt32.add_assoc]

/-- Counting units of work and depths, and turning to other frames, need not be told of. -/
theorem untold (m : Machine) (steps : UInt64) (deepest : Nat) (phase : Phase) :
    Records m [] { m with tally := { m.tally with steps, deepest }, phase } := by
  constructor <;> simp [player, Player.hearAll, Event.stalls, Event.collectedPositions]

/-- An event that tells of no move, and of no other player, adds nothing. -/
theorem of_not_isMove (m : Machine) {e : Event} (hmove : e.isMove = false)
    (hplayer : m.player.hear e = m.player) : Records m [e] m := by
  have hplayer : m.player.hearAll [e] = m.player := hplayer
  cases e with
  | started | reachedGoal | log | finished =>
    constructor <;> simp [hplayer, Event.stalls, Event.collectedPositions, Event.isStall,
      Event.isMove, Event.isCollected, Event.isLifeLost, Event.isSentBack]
  | step | collected | lifeLost | sentBack => cases hmove

/-- The event of a move tells all that the move does. -/
theorem move (m : Machine) (d : Direction) : Records m (m.move d).1.events (m.move d).2 := by
  have hlands := m.walk.lands_landing m.maze d
  have hplayer := m.walk.hear_event d (m.walk.landing m.maze d)
  have hstall := m.walk.isStall_event d (m.walk.landing m.maze d)
  have htaken := hlands.taken_after
  unfold Machine.move
  dsimp only
  generalize m.walk.landing m.maze d = l at hplayer hstall htaken ⊢
  have hcount := m.tally.countMove_eq l (m.walk.after d l).player
  refine ⟨hplayer, htaken, congrArg Tally.moves hcount, ?_, congrArg Tally.collected hcount,
    congrArg Tally.livesLost hcount, congrArg Tally.resets hcount⟩
  rw [Event.stalls, Event.stalls, player, hstall, Nat.add_zero]
  exact congrArg Tally.blockedMoves hcount

/-- Giving up tells of the player as before. -/
theorem giveUp (m : Machine) : Records m m.giveUp.1.events m.giveUp.2 :=
  (of_not_isMove m (e := .log _) rfl rfl).trans
    ((of_not_isMove m (e := .finished m.player) rfl rfl).trans (untold m _ _ _))

/-- The end of a run tells of the player as before. -/
theorem finish (m : Machine) (pace : Bool) :
    Records m (m.finish pace).1.events (m.finish pace).2 := by
  have hfinished : Records m [.finished m.player] (m.finish pace).2 :=
    (of_not_isMove m rfl rfl).trans (untold m _ _ _)
  unfold Machine.finish
  dsimp only
  split
  · exact (of_not_isMove m (e := .reachedGoal _) rfl rfl).trans hfinished
  · exact hfinished

/-- A unit of work tells what it does. -/
theorem step (m : Machine) : Records m m.step.1.events m.step.2 := by
  have hdone := m.does_step
  generalize m.step = done at hdone ⊢
  cases hdone with
  | begin => exact (of_not_isMove m rfl rfl).trans (untold m _ _ _)
  | move => exact (untold m _ _ _).trans (Records.move _ _)
  | pass | enter | rewind | leave | idle => exact untold m _ _ _
  | giveUp => exact (untold m _ _ _).trans (Records.giveUp _)
  | finish => exact (untold m _ _ _).trans (Records.finish _ _)

/-- What some units of work tell records them. -/
theorem after (m : Machine) (n : Nat) : Records m (m.events n) (m.after n) :=
  run_induction (motive := Records m) (untold m _ _ _) (fun _ m' h => h.trans (step m')) n

end Records

/-- All counters begin at zero, so they hold the numbers of the events told, as words. -/
theorem counted_after (program : Program) (maze : Maze) (player : Player) (maxDepth n : Nat) :
    let m := (start program maze player maxDepth).after n
    let told := (start program maze player maxDepth).events n
    m.tally.moves = UInt64.ofNat (told.countP Event.isMove) ∧
      m.tally.collected = UInt32.ofNat (told.countP Event.isCollected) ∧
      m.tally.livesLost = UInt32.ofNat (told.countP Event.isLifeLost) ∧
      m.tally.resets = UInt32.ofNat (told.countP Event.isSentBack) ∧
      m.tally.blockedMoves = UInt64.ofNat (Event.stalls player told) := by
  intro m told
  have h : Records (start program maze player maxDepth) told m := Records.after _ n
  exact ⟨h.moves_eq.trans (UInt64.zero_add _), h.collected_eq.trans (UInt32.zero_add _),
    h.livesLost_eq.trans (UInt32.zero_add _), h.resets_eq.trans (UInt32.zero_add _),
    h.blockedMoves_eq.trans (UInt64.zero_add _)⟩

/-- The events told up to any time of a run are a complete record of it. Heard one after another by
a reader who knows the player at first, they tell how the player is; their strawberries are those
picked up, in the order in which they were; and they number what is counted, as far as a counter
goes before it begins again: all moves, those that were blocked, the strawberries picked up and
taken by hazards, and the times the player was sent back. -/
theorem events_record_run (program : Program) (maze : Maze) (player : Player) (maxDepth n : Nat) :
    let m := (start program maze player maxDepth).after n
    let told := (start program maze player maxDepth).events n
    player.hearAll told = m.player ∧
      Event.collectedPositions told = m.walk.taken.toList ∧
      m.tally.moves.toNat = told.countP Event.isMove % 2 ^ 64 ∧
      m.tally.collected.toNat = told.countP Event.isCollected % 2 ^ 32 ∧
      m.tally.livesLost.toNat = told.countP Event.isLifeLost % 2 ^ 32 ∧
      m.tally.resets.toNat = told.countP Event.isSentBack % 2 ^ 32 ∧
      m.tally.blockedMoves.toNat = Event.stalls player told % 2 ^ 64 := by
  intro m told
  have h : Records (start program maze player maxDepth) told m := Records.after _ n
  obtain ⟨hmoves, hcollected, hlost, hresets, hblocked⟩ :=
    counted_after program maze player maxDepth n
  refine ⟨h.player_eq, h.taken_eq.symm, ?_, ?_, ?_, ?_, ?_⟩
  · rw [hmoves, UInt64.toNat_ofNat']
  · rw [hcollected, UInt32.toNat_ofNat']
  · rw [hlost, UInt32.toNat_ofNat']
  · rw [hresets, UInt32.toNat_ofNat']
  · rw [hblocked, UInt64.toNat_ofNat']

end Machine

end Labyrinth
