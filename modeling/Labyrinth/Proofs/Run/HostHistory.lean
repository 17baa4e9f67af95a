import Labyrinth.Proofs.Run.HostSteps
import Labyrinth.Proofs.Run.Superseding

/-!
# Histories of a host

Whatever is asked of a host, one operation after another, is some order of steps of its owner, its
workers and its readers (`Hosting.shows_history`). What holds in every such order holds of the host
then: only the active run can be working (`Host.History.isOver`), and a wait is answered with the
summary of the run started last (`Host.History.waited`).
-/

namespace Labyrinth

namespace Host

/-- Something that is asked of a host. -/
inductive Op where
  /-- To start a run. -/
  | start (job : Job)
  /-- To wait for the end of the active run. -/
  | wait
  /-- To stop the active run. -/
  | stopActive
  /-- To give the next event of a run. -/
  | receive (number : Nat)
  /-- To give all events of a run that come. -/
  | receiveRest (number : Nat)
  /-- To give them, after which the reader is gone. -/
  | collect (number : Nat)
  /-- To stop a run. -/
  | stop (number : Nat)
  /-- To leave a run without a reader. -/
  | abandon (number : Nat)
  /-- To wait until the queue of a run is full. -/
  | awaitFull (number : Nat)

variable {h : Host} {c : Config} {answers : List Answer} {n : Nat}

/-- The host after an operation. -/
def after (h : Host) : Op → Host
  | .start job => (h.start job.program job.maze job.player).2
  | .wait => h.wait.2
  | .stopActive => h.stopActive
  | .receive n => (h.receive n).2
  | .receiveRest n => (h.receiveRest n).2
  | .collect n => (h.collect n).2
  | .stop n => h.stop n
  | .abandon n => h.abandon n
  | .awaitFull n => h.awaitFull n

/-- What the owner is answered. -/
def answer? (h : Host) : Op → Option Answer
  | .start job => some (.started (h.start job.program job.maze job.player).1)
  | .wait => some (.waited h.wait.1)
  | .stopActive | .receive _ | .receiveRest _ | .collect _ | .stop _ | .abandon _
  | .awaitFull _ => none

/-- It can be asked: a run that is waited for comes to its end, and one that is read or stopped
through its reader has one. -/
def Allows (h : Host) : Op → Prop
  | .start _ | .stopActive | .awaitFull _ => True
  | .wait => h.active.isSome = true → h.wait.1.isSome = true
  | .receive n | .receiveRest n | .collect n | .stop n | .abandon n => h.Present n

/-- A host after some operations, and what its owner was answered. -/
inductive History (c : Config) : Host → List Answer → Prop
  /-- Nothing was asked. -/
  | create : History c ⟨c, [], none⟩ []
  /-- One more operation. -/
  | op {h : Host} {answers : List Answer} (hh : History c h answers) (op : Op)
    (hallowed : h.Allows op) : History c (h.after op) (answers ++ (h.answer? op).toList)

end Host

namespace Hosting

variable {s : Hosting} {h : Host} {c : Config} {answers : List Answer} {read : Nat → List Event}

/-- Every operation is some steps, with the same answer. -/
theorem Shows.op (hs : Shows s h read) (op : Host.Op) (hallowed : h.Allows op) :
    ∃ t read', s.Leads t ∧ Shows t (h.after op) read' ∧
      t.answers = s.answers ++ (h.answer? op).toList := by
  -- What is not the owner's call is not answered.
  have hsilent {h' : Host} {read' : Nat → List Event}
      (hother : ∃ t, s.Leads t ∧ Shows t h' read' ∧ t.answers = s.answers) :
      ∃ t read', s.Leads t ∧ Shows t h' read' ∧ t.answers = s.answers ++ [] := by
    obtain ⟨t, hlead, ht, hanswers⟩ := hother
    exact ⟨t, read', hlead, ht, by rw [hanswers, List.append_nil]⟩
  cases op with
  | start job =>
    obtain ⟨t, ht⟩ := hs.start job
    exact ⟨t, _, ht⟩
  | wait =>
    obtain ⟨t, ht⟩ := hs.wait hallowed
    exact ⟨t, _, ht⟩
  | stopActive => exact hsilent hs.stopActive
  | receive n => exact hsilent (hs.receive hallowed)
  | receiveRest n => exact hsilent (hs.receiveRest hallowed)
  | collect n => exact hsilent (hs.collect hallowed)
  | stop n => exact hsilent (hs.stop hallowed)
  | abandon n => exact hsilent (hs.abandon hallowed)
  | awaitFull n => exact hsilent (hs.awaitFull n)

/-- A history of a host is an order of steps, with the same answers. -/
theorem shows_history (hh : Host.History c h answers) :
    ∃ acts read, Shows ((create c).perform acts) h read ∧
      ((create c).perform acts).answers = answers := by
  induction hh with
  | create => exact ⟨[], _, shows_create c, rfl⟩
  | op _ op hallowed ih =>
    obtain ⟨acts, read, hs, hanswers⟩ := ih
    obtain ⟨_, read', ⟨acts', rfl⟩, ht, hanswers'⟩ := hs.op op hallowed
    have hperform : (create c).perform (acts ++ acts') = ((create c).perform acts).perform acts' :=
      List.foldl_append
    exact ⟨acts ++ acts', read', hperform ▸ ht, by rw [hperform, hanswers', hanswers]⟩

end Hosting

namespace Host.History

variable {h : Host} {c : Config} {answers : List Answer} {n : Nat}

/-- Of all runs only the active one can be working. -/
theorem isOver (hh : History c h answers) {r : LiveRun} (hr : h.runs[n]? = some r)
    (hn : h.active ≠ some n) : r.isOver = true := by
  obtain ⟨acts, read, hs, -⟩ := Hosting.shows_history hh
  rw [← Bool.not_eq_false]
  intro hworks
  have hworking : ((Hosting.create c).perform acts).isWorking n = true := by
    rw [Hosting.isWorking_iff, hs.mirrors.length, hs.mirrors.report?, hr]
    exact ⟨(List.getElem?_eq_some_iff.mp hr).1, by simpa [LiveRun.isOver] using hworks⟩
  obtain ⟨run, hrun, rfl⟩ := hs.mirrors.kept.working n hworking
  have hactive : ((Hosting.create c).perform acts).active = some run := by
    rw [Hosting.charge, hs.idle] at hrun
    exact hrun
  exact hn (by rw [← hs.active, hactive]; rfl)

/-- A wait is answered with the summary of the run started last, unless there was a wait since. -/
theorem waited (hh : History c h answers) {before after : List Answer} {report : Option Report}
    (hanswers : answers = before ++ .waited report :: after) :
    (∃ n, Answer.due before = some n ∧ report.isSome = true ∧
      h.runs[n]?.bind (·.report?) = report) ∨ (Answer.due before = none ∧ report = none) := by
  obtain ⟨acts, read, hs, hsame⟩ := Hosting.shows_history hh
  have howes := ((Hosting.sound_create c).perform acts).told.waited before report after
    (hsame.trans hanswers)
  simp only [Hosting.Owes, hs.mirrors.report?] at howes
  exact howes

end Host.History

end Labyrinth
