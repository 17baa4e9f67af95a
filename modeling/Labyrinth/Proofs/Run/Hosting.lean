import Labyrinth.Proofs.Run.Interleaving
import Labyrinth.Proofs.Run.Signals

/-!
# A host, its runs and their readers, step by step

The owner of a host, the workers of its runs and their readers all go on at the same time. What the
owner calls takes several steps: to take the run out of the place where the host keeps it, to look
whether it is at its end, to raise its stop signal, to wait for its end, to begin another run and to
put that in the place. Each step of a worker or of a reader can fall between any two of them. Stop
signals are seen and raised through handles only: a run's worker has one, its reader another, and
the owner a third.
-/

namespace Labyrinth

/-- What a run is started with. -/
structure Job where
  /-- The program. -/
  program : Program
  /-- The maze. -/
  maze : Maze
  /-- The player at the start. -/
  player : Player

namespace Job

/-- The run that is about to begin. -/
def run (j : Job) (maxDepth : Nat) : LiveRun := .start maxDepth j.program j.maze j.player

/-- The machine that carries the job out. -/
def machine (j : Job) (maxDepth : Nat) : Machine := .start j.program j.maze j.player maxDepth

/-- The events and the summary of the job when nothing stops it. -/
def whole (j : Job) (maxDepth : Nat) : List Event × Report :=
  Run.collect maxDepth j.program j.maze j.player

end Job

/-- How far a reader has let go of its run. -/
inductive Hold where
  /-- It reads. -/
  | held
  /-- It has raised the stop signal in order to leave. -/
  | leaving
  /-- It is gone. -/
  | gone
  deriving DecidableEq, Repr

/-- A run that was started, with the handles on its stop signal. -/
structure HostedRun where
  /-- What it was started with. -/
  job : Job
  /-- The run; whether its stop signal is up is read from the worker's handle. -/
  scene : Scene
  /-- The worker's handle. -/
  worker : Nat
  /-- The reader's handle. -/
  reader : Nat
  /-- How far the reader has let go. -/
  hold : Hold

/-- A run that the owner can stop and wait for. -/
structure Charge where
  /-- Its number. -/
  number : Nat
  /-- The owner's handle on its stop signal. -/
  handle : Nat
  deriving DecidableEq, Repr

/-- A call of the owner that takes more than one step. -/
inductive Call where
  /-- To start a run. -/
  | start (job : Job)
  /-- To wait for the end of the active run. -/
  | wait
  /-- To give the host up. -/
  | leave

/-- The call stops the run that it finds. -/
def Call.stops : Call → Bool
  | start _ | leave => true
  | wait => false

/-- How far the owner is with a call. -/
inductive Owner where
  /-- Nothing is called. -/
  | idle
  /-- The active run is to be taken out of its place. -/
  | emptying (call : Call)
  /-- It is to be seen whether the run is at its end. -/
  | checking (call : Call) (run : Charge)
  /-- The stop signal of the run is to be raised. -/
  | raising (call : Call) (run : Charge)
  /-- The end of the run is waited for. -/
  | joining (call : Call) (run : Charge)
  /-- There is no run any more; the summary of the one there was. -/
  | vacant (call : Call) (report : Option Report)
  /-- A run has begun and is to be put in its place. -/
  | handing (run : Charge)
  /-- The host was given up. -/
  | gone

/-- What the owner was answered. -/
inductive Answer where
  /-- The run of this number was started. -/
  | started (number : Nat)
  /-- A wait is over. -/
  | waited (report : Option Report)
  deriving DecidableEq, Repr

/-- The run that was started last, unless there was a wait since. -/
def Answer.due (answers : List Answer) : Option Nat :=
  answers.foldl (fun _ a => match a with | .started n => some n | .waited _ => none) none

/-- A host in the middle of things. -/
structure Hosting where
  /-- The settings of all runs. -/
  config : Config
  /-- The stop signals of the runs. -/
  board : SignalBoard
  /-- The runs, first started first. -/
  runs : List HostedRun
  /-- The run that the host keeps. -/
  active : Option Charge
  /-- How far the owner is. -/
  owner : Owner
  /-- What the owner was answered, first answer first. -/
  answers : List Answer

namespace Scene

/-- The scene with its stop signal up or not. -/
def withSignal (x : Scene) (up : Bool) : Scene := { x with run := { x.run with stopped := up } }

/-- The reader is gone, and what it has not read with it. -/
def disconnect (x : Scene) : Scene :=
  { x with run := { x.run with abandoned := true, queue := [] } }

end Scene

namespace Hosting

/-- Before the first call. -/
def create (c : Config) : Hosting := ⟨c, .empty, [], none, .idle, []⟩

/-- Something that happens. -/
inductive Act where
  /-- The owner, who is not in a call, calls. -/
  | call (c : Call)
  /-- The owner, who is not in a call, raises the stop signal of the active run. -/
  | cancel
  /-- The owner goes on with its call; a run at its end may be seen to be so or not yet. -/
  | proceed (seen : Bool)
  /-- The worker of a run does the next thing. -/
  | work (number : Nat)
  /-- The reader of a run takes an event. -/
  | receive (number : Nat)
  /-- The reader of a run raises its stop signal. -/
  | stop (number : Nat)
  /-- The reader of a run raises its stop signal in order to leave. -/
  | release (number : Nat)
  /-- The reader of a run leaves. -/
  | disconnect (number : Nat)

variable (s : Hosting)

/-- The summary of a run that is at its end. -/
def report? (number : Nat) : Option Report := s.runs[number]?.bind (·.scene.run.report?)

/-- The run was started and is not at its end. -/
def isWorking (number : Nat) : Bool := s.runs[number]?.any (!·.scene.run.isOver)

/-- The stop signal that the worker of a run sees is up. -/
def isStopped (number : Nat) : Bool := s.runs[number]?.any (s.board.isUp ·.worker)

/-- Does something to the run of a number. -/
def onRun (number : Nat) (f : HostedRun → HostedRun) : Hosting :=
  { s with runs := s.runs.modify number f }

/-- Raises the stop signal of a handle. -/
def raise (handle : Nat) : Hosting := { s with board := s.board.raise handle }

/-- Lets a run begin: its reader has the new handle, its worker and the owner have copies. -/
def begin (job : Job) : Hosting :=
  let reader := s.board.handles.length
  { s with
    board := s.board.issue
    runs := s.runs ++ [⟨job, .ofRun (job.run s.config.maxDepth) [], reader + 1, reader, .held⟩]
    owner := .handing ⟨s.runs.length, reader + 2⟩ }

/-- The owner goes on with its call. -/
def proceed (seen : Bool) : Hosting :=
  match s.owner with
  | .idle | .gone => s
  | .emptying call =>
    match s.active with
    | none => { s with owner := .vacant call none }
    | some run =>
      { s with
        active := none
        owner := if call.stops then .checking call run else .joining call run }
  | .checking call run =>
    { s with owner := if seen && (s.report? run.number).isSome then .joining call run
      else .raising call run }
  | .raising call run => { s.raise run.handle with owner := .joining call run }
  | .joining call run =>
    match s.report? run.number with
    | none => s
    | some report => { s with owner := .vacant call (some report) }
  | .vacant (.start job) _ => s.begin job
  | .vacant .wait report => { s with owner := .idle, answers := s.answers ++ [.waited report] }
  | .vacant .leave _ => { s with owner := .gone }
  | .handing run =>
    { s with active := some run, owner := .idle, answers := s.answers ++ [.started run.number] }

/-- The worker of a run does the next thing. -/
def work (number : Nat) : Hosting :=
  match s.runs[number]? with
  | none => s
  | some r =>
    let scene := (r.scene.withSignal (s.board.isUp r.worker)).work s.config.eventBuffer
    let s := s.onRun number fun r => { r with scene := scene }
    if scene.run.stopped then s.raise r.worker else s

/-- The reader of a run does something, if the run has one that has not begun to leave. -/
def byReader (number : Nat) (f : HostedRun → Hosting) : Hosting :=
  match s.runs[number]? with
  | none => s
  | some r => if r.hold = .held then f r else s

/-- What happens when something happens. -/
def act : Act → Hosting
  | .call c =>
    match s.owner with
    | .idle => { s with owner := .emptying c }
    | _ => s
  | .cancel =>
    match s.owner, s.active with
    | .idle, some run => s.raise run.handle
    | _, _ => s
  | .proceed seen => s.proceed seen
  | .work n => s.work n
  | .receive n => s.byReader n fun _ => s.onRun n fun r => { r with scene := r.scene.receive }
  | .stop n => s.byReader n fun r => s.raise r.reader
  | .release n =>
    s.byReader n fun r => (s.raise r.reader).onRun n fun r => { r with hold := .leaving }
  | .disconnect n =>
    s.onRun n fun r =>
      if r.hold = .leaving then { r with scene := r.scene.disconnect, hold := .gone } else r

/-- What is after some things have happened. -/
def perform (acts : List Act) : Hosting := acts.foldl act s

end Hosting

end Labyrinth
