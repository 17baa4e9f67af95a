import Labyrinth.Run.Config
import Labyrinth.Run.Courier

/-!
# Running to the end

A listener receives the events of a run; it may refuse an event and it may raise the
stop signal. `drive` takes a courier to its end under a listener. `Run.collect` is the
run under a listener that keeps every event, and `Run.under` one under any listener.
-/

namespace Labyrinth

/-- What a listener does with an event. -/
structure Reply where
  /-- Whether it takes the event. -/
  accepted : Bool
  /-- Whether it raises the stop signal meanwhile. -/
  stops : Bool
  deriving DecidableEq, Repr

/-- A receiver of events with a state of its own. -/
structure Listener (σ : Type) where
  /-- Receives an event. -/
  offer : Event → σ → Reply × σ
  /-- Says whether anyone has raised the stop signal since it was last looked at. -/
  poll : σ → Bool × σ

/-- What is known when a run is over. -/
structure Driven (σ : Type) where
  /-- The summary of the run. -/
  report : Report
  /-- Whether the stop signal is up. -/
  stopped : Bool
  /-- The listener. -/
  listener : σ

/-- Takes a courier to its end. The stop signal, once up, stays up; a refusal raises it. -/
def drive {σ : Type} (l : Listener σ) (c : Courier) (stopped : Bool) (s : σ) : Driven σ :=
  match _h : c.stage with
  | .closed report => ⟨report, stopped, s⟩
  | .looking =>
    let (asked, s) := l.poll s
    let stopped := stopped || asked
    drive l (c.look stopped) stopped s
  | .offering e later pace =>
    let (reply, s) := l.offer e s
    let stopped := stopped || reply.stops
    if reply.accepted then drive l (c.accepted later pace) stopped s
    else
      let (asked, s) := l.poll s
      drive l (c.refused (stopped || asked)) true s
  | .resting => drive l c.wake stopped s
  | .signing =>
    let (reply, s) := l.offer .cancelled s
    drive l (c.signed reply.accepted) (stopped || reply.stops) s
termination_by c.pending
decreasing_by
  · exact Courier.pending_look_lt ‹_›
  · exact Courier.pending_accepted_lt ‹_›
  · exact Courier.pending_refused_lt ‹_›
  · exact Courier.pending_wake_lt ‹_›
  · exact Courier.pending_signed_lt ‹_›

namespace Listener

/-- Keeps every event, last first. -/
def keeper : Listener (List Event) where
  offer e kept := (⟨true, false⟩, e :: kept)
  poll kept := (false, kept)

/-- Takes nothing. -/
def deaf : Listener (List Event) where
  offer _ kept := (⟨false, false⟩, kept)
  poll kept := (false, kept)

/-- Keeps the first `limit` events, last first, and takes no more. -/
def upTo (limit : Nat) : Listener (List Event) where
  offer e kept :=
    if kept.length < limit then (⟨true, false⟩, e :: kept) else (⟨false, false⟩, kept)
  poll kept := (false, kept)

/-- Raises the stop signal while the event number `last`, counted from 1, is offered, and then
refuses that event if `refuses`; keeps all others, last first. The state is the number of events
offered and the events kept. -/
def stoppingAt (last : Nat) (refuses : Bool) : Listener (Nat × List Event) where
  offer e s :=
    let number := s.1 + 1
    let now := number == last
    if now && refuses then (⟨false, true⟩, number, s.2) else (⟨true, now⟩, number, e :: s.2)
  poll s := (false, s)

end Listener

namespace Run

/-- A run under a listener, with the stop signal up from the beginning or not. -/
def under {σ : Type} (l : Listener σ) (maxDepth : Nat) (program : Program) (maze : Maze)
    (player : Player) (stopped : Bool) (s : σ) : Driven σ :=
  drive l (.ofMachine (.start program maze player maxDepth)) stopped s

/-- A run that is carried through: all its events and its summary. -/
def collect (maxDepth : Nat) (program : Program) (maze : Maze) (player : Player) :
    List Event × Report :=
  let d := under .keeper maxDepth program maze player false []
  (d.listener.reverse, d.report)

end Run

end Labyrinth
