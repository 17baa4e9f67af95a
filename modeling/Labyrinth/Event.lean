import Labyrinth.Position

/-!
# Players and events

A player stands on a cell, holds strawberries and remembers where to go when a hazard
finds no strawberry to take. Everything that happens in a run is told by events. Two of
them end the stream of a run: the last one of a run that was carried through, and the
note that the run was cancelled (`Event.isTerminal_iff`).
-/

namespace Labyrinth

/-- Where a player stands and what the player has. -/
structure Player where
  /-- The cell the player stands on. -/
  position : Position
  /-- The strawberries held. -/
  strawberries : Nat
  /-- Where a hazard sends a player who holds none. -/
  start : Position
  deriving DecidableEq, Repr

/-- The most strawberries that can be held: one more is not counted. -/
def maxStrawberries : Nat := 4294967295

namespace Player

/-- A player on a cell, to be sent back there, with nothing in hand. -/
def atStart (start : Position) : Player := ⟨start, 0, start⟩

end Player

/-- What is told about a run. -/
inductive Event where
  /-- The run began with this player. -/
  | started (player : Player)
  /-- A move was tried; the position is where the player stands after it. -/
  | step (position : Position) (strawberries : Nat)
  /-- A strawberry was picked up; the count is the one after it. -/
  | collected (position : Position) (strawberries : Nat)
  /-- A hazard took a strawberry; the count is the one after it. -/
  | lifeLost (position : Position) (strawberries : Nat)
  /-- A hazard sent the player back to this cell. -/
  | sentBack (position : Position)
  /-- The program ended on the goal. -/
  | reachedGoal (position : Position)
  /-- A note for the reader. -/
  | log (text : String)
  /-- The run ended with this player. -/
  | finished (player : Player)
  deriving DecidableEq, Repr

/-- The note that ends the stream of a cancelled run. -/
def cancelledText : String := "Execution cancelled"

namespace Event

/-- The last event of a cancelled run. -/
def cancelled : Event := log cancelledText

/-- Whether an event ends the stream of its run. -/
def isTerminal : Event → Bool
  | finished _ => true
  | log text => text == cancelledText
  | _ => false

/-- The cell an event speaks of. -/
def position? : Event → Option Position
  | started p | finished p => some p.position
  | step p _ | collected p _ | lifeLost p _ | sentBack p | reachedGoal p => some p
  | log _ => none

/-- One line about an event. -/
def text : Event → String
  | started p => "started at " ++ toString p.position ++ " with " ++ toString p.strawberries
  | step p n => "step to " ++ toString p ++ " (" ++ toString n ++ ")"
  | collected p n => "collected strawberry at " ++ toString p ++ " (" ++ toString n ++ ")"
  | lifeLost p n => "hit enemy at " ++ toString p ++ ", " ++ toString n ++ " left"
  | sentBack p => "hit enemy, reset to " ++ toString p
  | reachedGoal p => "reached goal at " ++ toString p
  | log text => text
  | finished p => "finished at " ++ toString p.position ++ " with " ++ toString p.strawberries

/-- The cells of the plain steps in a stream. -/
def stepPositions (events : List Event) : List Position :=
  events.filterMap fun
    | step p _ => some p
    | _ => none

/-- The cells where strawberries were picked up in a stream. -/
def collectedPositions (events : List Event) : List Position :=
  events.filterMap fun
    | collected p _ => some p
    | _ => none

/-- A stream without its notes. -/
def withoutLogs (events : List Event) : List Event :=
  events.filter fun
    | log _ => false
    | _ => true

/-- The stream of a run ends with the note of a cancelled run or with the final player. -/
theorem isTerminal_iff {e : Event} : e.isTerminal = true ↔ e = cancelled ∨ ∃ p, e = finished p := by
  cases e <;> simp [isTerminal, cancelled]

end Event

end Labyrinth
