import Labyrinth.Run.Machine

/-!
# Carrying events to a receiver

A courier lets a machine work and offers its events, one by one and in order, to whoever
receives them. Before each unit of work it looks at the stop signal; a run that is
stopped ends with one last note. A receiver that refuses an event ends the run too: with
the note if the stop signal is up by then, and without it otherwise. The functions of
this module are the moves of the courier; what the signal and the receiver do is left to
the surroundings. The statements about `pending` say that each move brings the courier
nearer to its end.
-/

namespace Labyrinth

/-- How a run ended. -/
inductive Outcome where
  /-- The machine came to its own end. -/
  | ended (ending : Ending)
  /-- The run was stopped. -/
  | cancelled
  deriving DecidableEq, Repr

namespace Outcome

/-- Whether the whole program was run and the player ended on the goal. -/
def reachedGoal : Outcome → Bool
  | ended (.completed reached) => reached
  | _ => false

/-- The description of what went wrong in the run itself. -/
def errorText? : Outcome → Option String
  | ended (.tooDeep limit) => some (tooDeepText limit)
  | _ => none

end Outcome

/-- The summary of a run. -/
structure Report where
  /-- The player at the end; nothing for a run that was stopped. -/
  finalPlayer : Option Player
  /-- How the run ended. -/
  outcome : Outcome
  /-- What was counted. -/
  tally : Tally
  /-- The events that were accepted. -/
  delivered : Nat
  deriving DecidableEq, Repr

/-- What a courier is about to do. -/
inductive Stage where
  /-- To look at the stop signal, and then to let the machine work. -/
  | looking
  /-- To offer an event, and then those after it. -/
  | offering (event : Event) (later : List Event) (pace : Bool)
  /-- To pause. -/
  | resting
  /-- To offer the note that ends the stream of a stopped run. -/
  | signing
  /-- Nothing more. -/
  | closed (report : Report)

/-- A machine whose events are being carried to a receiver. -/
structure Courier where
  /-- The machine. -/
  machine : Machine
  /-- The events accepted so far. -/
  delivered : Nat
  /-- What is to be done next. -/
  stage : Stage

namespace Courier

/-- Before the first look. -/
def ofMachine (m : Machine) : Courier := ⟨m, 0, .looking⟩

/-- The summary, if the run is over. -/
def report? (c : Courier) : Option Report :=
  match c.stage with
  | .closed r => some r
  | _ => none

/-- The summary of the run if it is stopped now. -/
def cancelledReport (c : Courier) : Report := ⟨none, .cancelled, c.machine.tally, c.delivered⟩

/-- Goes on after the last event of a unit of work. -/
def settle (c : Courier) (pace : Bool) : Courier :=
  match c.machine.ending? with
  | some e =>
    { c with stage := .closed ⟨some c.machine.player, .ended e, c.machine.tally, c.delivered⟩ }
  | none => { c with stage := if pace then .resting else .looking }

/-- Turns to the next of some events. -/
def offerNext (c : Courier) (events : List Event) (pace : Bool) : Courier :=
  match events with
  | [] => c.settle pace
  | e :: later => { c with stage := .offering e later pace }

/-- Looks at the stop signal, and lets the machine work if it is not up. -/
def look (c : Courier) (stopped : Bool) : Courier :=
  if stopped then { c with stage := .signing }
  else
    let (out, machine) := c.machine.step
    { c with machine := machine }.offerNext out.events out.pace

/-- Goes on after an event was accepted. -/
def accepted (c : Courier) (later : List Event) (pace : Bool) : Courier :=
  { c with delivered := c.delivered + 1 }.offerNext later pace

/-- Goes on after an event was refused, with the stop signal up or not. -/
def refused (c : Courier) (stopped : Bool) : Courier :=
  { c with stage := if stopped then .signing else .closed c.cancelledReport }

/-- Goes on after a pause. -/
def wake (c : Courier) : Courier := { c with stage := .looking }

/-- Ends the run after the last note was offered. -/
def signed (c : Courier) (accepted : Bool) : Courier :=
  let c := if accepted then { c with delivered := c.delivered + 1 } else c
  { c with stage := .closed c.cancelledReport }

/-- How far a stage is from the next unit of work. -/
def rank : Stage → Nat
  | .closed _ => 0
  | .signing => 1
  | .looking => 2
  | .resting => 3
  | .offering _ later _ => 4 + later.length

/-- What lies before the courier: the work of the machine, then the moves up to it. -/
def pending (c : Courier) : Nat × Nat := (c.machine.work, rank c.stage)

/-- The order in which couriers come nearer to their end. -/
abbrev Nearer : Nat × Nat → Nat × Nat → Prop := Prod.Lex (· < ·) (· < ·)

theorem rank_settle_le (c : Courier) (pace : Bool) : rank (c.settle pace).stage ≤ 3 := by
  unfold settle
  split
  · exact Nat.zero_le _
  · cases pace <;> simp [rank]

theorem machine_settle (c : Courier) (pace : Bool) : (c.settle pace).machine = c.machine := by
  unfold settle
  split <;> rfl

theorem machine_offerNext (c : Courier) (events : List Event) (pace : Bool) :
    (c.offerNext events pace).machine = c.machine := by
  cases events with
  | nil => exact machine_settle c pace
  | cons e later => rfl

theorem rank_offerNext_le (c : Courier) (events : List Event) (pace : Bool) :
    rank (c.offerNext events pace).stage ≤ 3 + events.length := by
  cases events with
  | nil => exact rank_settle_le c pace
  | cons e later =>
    simp only [offerNext, rank, List.length_cons]
    omega

/-- An accepted event brings the courier nearer to its end. -/
theorem pending_accepted_lt {c : Courier} {e : Event} {later : List Event} {pace : Bool}
    (h : c.stage = .offering e later pace) :
    Nearer (c.accepted later pace).pending c.pending := by
  have hm : (c.accepted later pace).machine = c.machine := machine_offerNext _ _ _
  have hr := rank_offerNext_le { c with delivered := c.delivered + 1 } later pace
  unfold pending
  rw [hm, h]
  refine Prod.Lex.right _ ?_
  simp only [accepted, rank] at hr ⊢
  omega

/-- A refused event brings the courier nearer to its end. -/
theorem pending_refused_lt {c : Courier} {e : Event} {later : List Event} {pace stopped : Bool}
    (h : c.stage = .offering e later pace) : Nearer (c.refused stopped).pending c.pending := by
  unfold pending
  rw [h]
  refine Prod.Lex.right _ ?_
  cases stopped <;> simp only [refused, rank, Bool.false_eq_true, if_false, if_true] <;> omega

/-- A look at the stop signal brings the courier nearer to its end. -/
theorem pending_look_lt {c : Courier} {stopped : Bool} (h : c.stage = .looking) :
    Nearer (c.look stopped).pending c.pending := by
  unfold pending
  rw [h]
  unfold look
  split
  · exact Prod.Lex.right _ (by simp [rank])
  · rw [machine_offerNext]
    cases ho : c.machine.isOver with
    | false => exact Prod.Lex.left _ _ (Machine.work_step_lt ho)
    | true =>
      rw [Machine.step_of_isOver ho]
      refine Prod.Lex.right _ ?_
      obtain ⟨e, he⟩ := Option.isSome_iff_exists.mp ho
      simp [offerNext, settle, he, rank]

/-- The end of a pause brings the courier nearer to its end. -/
theorem pending_wake_lt {c : Courier} (h : c.stage = .resting) :
    Nearer c.wake.pending c.pending := by
  unfold pending
  rw [h]
  exact Prod.Lex.right _ (by simp [wake, rank])

/-- The last note brings the courier to its end. -/
theorem pending_signed_lt {c : Courier} {accepted : Bool} (h : c.stage = .signing) :
    Nearer (c.signed accepted).pending c.pending := by
  unfold pending
  rw [h]
  cases accepted <;> exact Prod.Lex.right _ (by simp [signed, rank])

end Courier

end Labyrinth
