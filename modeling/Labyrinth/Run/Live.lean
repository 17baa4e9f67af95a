import Labyrinth.Run.Config
import Labyrinth.Run.Courier

/-!
# Runs that are watched while they happen

A live run sends its events through a queue from which a reader takes them. The queue
may be bounded: ordinary events wait until fewer than the bound are in it, and it has one
place more, so that the event which ends the stream never waits. An event that waits when
the stop signal goes up is dropped. A run whose reader is gone sends nothing any more.

`move?` is one move of the worker that takes no time; a pause takes time, and ends by
`next?` or by the stop signal. `pending_next?_lt` says that the worker comes to an end.
-/

namespace Labyrinth

/-- A run with the queue between it and its reader. -/
structure LiveRun where
  /-- The worker. -/
  courier : Courier
  /-- The events sent and not yet read, oldest first. -/
  queue : List Event
  /-- Whether the stop signal is up. -/
  stopped : Bool
  /-- Whether the reader is gone. -/
  abandoned : Bool

namespace LiveRun

/-- A run that is about to begin. -/
def start (maxDepth : Nat) (program : Program) (maze : Maze) (player : Player) : LiveRun :=
  ⟨.ofMachine (.start program maze player maxDepth), [], false, false⟩

/-- The summary, if the run is over. -/
def report? (r : LiveRun) : Option Report := r.courier.report?

/-- Whether the worker has come to its end. -/
def isOver (r : LiveRun) : Bool := r.report?.isSome

/-- Whether an event need not wait: it ends the stream, or fewer events than the bound are in
the queue. -/
def hasRoom (buffer : Option Nat) (r : LiveRun) (e : Event) : Bool :=
  e.isTerminal || buffer.all (r.queue.length < ·)

/-- Whether the queue can take no event at all. -/
def isFull (buffer : Option Nat) (r : LiveRun) : Bool :=
  buffer.any (· + 1 ≤ r.queue.length)

/-- Tries to send an event without waiting, and says whether it was sent. -/
def trySend (buffer : Option Nat) (r : LiveRun) (e : Event) : Bool × LiveRun :=
  if r.abandoned || r.isFull buffer then (false, r)
  else (true, { r with queue := r.queue ++ [e] })

/-- The next move of the worker that takes no time, if it has one. -/
def move? (c : Config) (r : LiveRun) : Option LiveRun :=
  match r.courier.stage with
  | .closed _ => none
  | .looking => some { r with courier := r.courier.look r.stopped }
  | .offering e later pace =>
    if r.hasRoom c.eventBuffer e then
      match r.trySend c.eventBuffer e with
      | (true, r) => some { r with courier := r.courier.accepted later pace }
      | (false, r) => some { r with courier := r.courier.refused r.stopped, stopped := true }
    else if r.stopped then some { r with courier := r.courier.refused true }
    else none
  | .resting =>
    if c.stepDelay = 0 ∨ r.stopped then some { r with courier := r.courier.wake } else none
  | .signing =>
    let last := r.trySend c.eventBuffer .cancelled
    some { last.2 with courier := last.2.courier.signed last.1 }

/-- The end of a pause, if the worker pauses. -/
def elapse? (r : LiveRun) : Option LiveRun :=
  match r.courier.stage with
  | .resting => some { r with courier := r.courier.wake }
  | _ => none

/-- The next move of the worker, for which time may pass. -/
def next? (c : Config) (r : LiveRun) : Option LiveRun := (r.move? c).or r.elapse?

theorem courier_trySend (buffer : Option Nat) (r : LiveRun) (e : Event) :
    (r.trySend buffer e).2.courier = r.courier := by
  unfold trySend
  split <;> rfl

/-- A move brings the worker nearer to its end. -/
theorem pending_move?_lt {c : Config} {r s : LiveRun} (h : r.move? c = some s) :
    Courier.Nearer s.courier.pending r.courier.pending := by
  unfold move? at h
  split at h
  · cases h
  · rename_i hs
    cases h
    exact Courier.pending_look_lt hs
  · rename_i e later pace hs
    split at h
    · split at h
      · rename_i q hq
        cases h
        have hc : q.courier = r.courier := by
          rw [← courier_trySend c.eventBuffer r e, hq]
        rw [← hc] at hs ⊢
        exact Courier.pending_accepted_lt hs
      · rename_i q hq
        cases h
        have hc : q.courier = r.courier := by
          rw [← courier_trySend c.eventBuffer r e, hq]
        rw [← hc] at hs ⊢
        exact Courier.pending_refused_lt hs
    · split at h
      · cases h
        exact Courier.pending_refused_lt hs
      · cases h
  · rename_i hs
    split at h
    · cases h
      exact Courier.pending_wake_lt hs
    · cases h
  · rename_i hs
    rw [← Option.some.inj h]
    simp only [courier_trySend]
    exact Courier.pending_signed_lt hs

/-- The end of a pause brings the worker nearer to its end. -/
theorem pending_elapse?_lt {r s : LiveRun} (h : r.elapse? = some s) :
    Courier.Nearer s.courier.pending r.courier.pending := by
  unfold elapse? at h
  split at h
  · rename_i hs
    cases h
    exact Courier.pending_wake_lt hs
  · cases h

/-- Any move brings the worker nearer to its end. -/
theorem pending_next?_lt {c : Config} {r s : LiveRun} (h : r.next? c = some s) :
    Courier.Nearer s.courier.pending r.courier.pending := by
  rcases Option.or_eq_some_iff.mp h with h | ⟨-, h⟩
  · exact pending_move?_lt h
  · exact pending_elapse?_lt h

/-- Lets the worker move as long as that takes no time. -/
def settle (c : Config) (r : LiveRun) : LiveRun :=
  match _h : r.move? c with
  | none => r
  | some s => s.settle c
termination_by r.courier.pending
decreasing_by exact pending_move?_lt ‹_›

/-- Lets the worker move, and time pass, until something holds or nothing can move. -/
def waitUntil (c : Config) (holds : LiveRun → Bool) (r : LiveRun) : LiveRun :=
  if holds r then r
  else
    match _h : r.next? c with
    | none => r
    | some s => s.waitUntil c holds
termination_by r.courier.pending
decreasing_by exact pending_next?_lt ‹_›

/-- The run after all events in the queue have been read. -/
def emptied (r : LiveRun) : LiveRun := { r with queue := [] }

/-- Reads everything that the worker still sends; `read` is what was read before, last first. -/
def drain (c : Config) (r : LiveRun) (read : List Event) : List Event × LiveRun :=
  let read := r.queue.reverse ++ read
  match _h : r.emptied.next? c with
  | none => (read.reverse, r.emptied)
  | some s => s.drain c read
termination_by r.courier.pending
decreasing_by
  have h : Courier.Nearer s.courier.pending r.emptied.courier.pending := pending_next?_lt ‹_›
  exact h

/-- Takes the oldest event, for which the reader waits; nothing when the stream has ended. -/
def receive (c : Config) (r : LiveRun) : Option Event × LiveRun :=
  let r := r.waitUntil c (fun r => !r.queue.isEmpty)
  match r.queue with
  | [] => (none, r)
  | e :: queue => (some e, { r with queue := queue }.settle c)

/-- Takes all events up to the end of the stream. -/
def receiveRest (c : Config) (r : LiveRun) : List Event × LiveRun := r.drain c []

/-- Raises the stop signal. -/
def stop (c : Config) (r : LiveRun) : LiveRun := { r with stopped := true }.settle c

/-- Leaves the run without a reader, which stops it. -/
def abandon (c : Config) (r : LiveRun) : LiveRun :=
  { r with stopped := true, abandoned := true, queue := [] }.settle c

/-- Stops the run unless it is over. -/
def stopUnlessOver (c : Config) (r : LiveRun) : LiveRun := if r.isOver then r else r.stop c

/-- Waits until the queue holds as many events as ordinary events may wait in it. -/
def awaitFull (c : Config) (r : LiveRun) : LiveRun :=
  r.waitUntil c (fun r => c.eventBuffer.all (· ≤ r.queue.length))

/-- Waits until the run is over. -/
def join (c : Config) (r : LiveRun) : LiveRun := r.waitUntil c isOver

end LiveRun

end Labyrinth
