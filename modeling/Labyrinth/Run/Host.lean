import Labyrinth.Run.Live

/-!
# One live run at a time

A host starts live runs and gives out a number for each; the reader of a run uses its
number. Only the run started last can still be working: starting another one stops it
and waits for its end. The host can be asked for the summary of that run once.
-/

namespace Labyrinth

/-- A host and the runs it has started. -/
structure Host where
  /-- The settings of all runs. -/
  config : Config
  /-- The runs, first started first. -/
  runs : List LiveRun
  /-- The run whose summary has not been asked for. -/
  active : Option Nat

namespace Host

/-- A host that has started nothing, if its settings allow any run. -/
def create (c : Config) : Except ConfigError Host := c.validate.map (⟨·, [], none⟩)

/-- Does something to the run of a number. -/
def onRun (h : Host) (number : Nat) (f : LiveRun → LiveRun) : Host :=
  { h with runs := h.runs.modify number f }

/-- Stops the active run and waits for its end; after that no run is active. -/
def retire (h : Host) : Host :=
  match h.active with
  | none => h
  | some n => { h.onRun n (·.stopUnlessOver h.config) with active := none }

/-- Starts a run after the active one has been retired, and gives its number. -/
def start (h : Host) (program : Program) (maze : Maze) (player : Player) : Nat × Host :=
  let h := h.retire
  let run := (LiveRun.start h.config.maxDepth program maze player).settle h.config
  (h.runs.length, { h with runs := h.runs ++ [run], active := some h.runs.length })

/-- Takes something from the run of a number; `none` if there is no such run. -/
def takeFrom {α : Type} (h : Host) (number : Nat) (none : α) (f : LiveRun → α × LiveRun) :
    α × Host :=
  match h.runs[number]? with
  | some r => ((f r).1, h.onRun number (fun _ => (f r).2))
  | _ => (none, h)

/-- The next event of a run; nothing when its stream has ended. -/
def receive (h : Host) (number : Nat) : Option Event × Host :=
  h.takeFrom number none (·.receive h.config)

/-- All events of a run up to the end of its stream. -/
def receiveRest (h : Host) (number : Nat) : List Event × Host :=
  h.takeFrom number [] (·.receiveRest h.config)

/-- Stops a run. -/
def stop (h : Host) (number : Nat) : Host := h.onRun number (·.stop h.config)

/-- Stops the active run. -/
def stopActive (h : Host) : Host :=
  match h.active with
  | none => h
  | some n => h.stop n

/-- Leaves a run without a reader. -/
def abandon (h : Host) (number : Nat) : Host := h.onRun number (·.abandon h.config)

/-- All events of a run up to the end of its stream; its reader is gone afterwards. -/
def collect (h : Host) (number : Nat) : List Event × Host :=
  let (events, h) := h.receiveRest number
  (events, h.abandon number)

/-- Whether the stop signal of a run is up. -/
def isStopped (h : Host) (number : Nat) : Bool := h.runs[number]?.any (·.stopped)

/-- Whether the active run is still working. -/
def isRunning (h : Host) : Bool :=
  (h.active.bind (h.runs[·]?)).any (fun r => !r.isOver)

/-- Waits until the queue of a run is full. -/
def awaitFull (h : Host) (number : Nat) : Host := h.onRun number (·.awaitFull h.config)

/-- Waits for the end of the active run and gives its summary; no run is active afterwards. -/
def wait (h : Host) : Option Report × Host :=
  match h.active with
  | none => (none, h)
  | some n =>
    let (report, h) := h.takeFrom n none (fun r =>
      let r := r.join h.config
      (r.report?, r))
    (report, { h with active := none })

end Host

end Labyrinth
