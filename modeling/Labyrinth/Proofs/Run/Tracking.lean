import Labyrinth.Run.Courier
import Labyrinth.Proofs.Run.Course

/-!
# Where a courier stands in the stream

A courier follows the stream of its machine. What was accepted so far and what it has in
hand is always what the machine has told, so the events accepted are a prefix of the
stream, and the whole stream when the courier comes to the machine's own end. None of
the statements depends on who receives the events or on the stop signal.
-/

namespace Labyrinth

namespace Machine

/-- The summary of a run that is carried through with every event accepted. -/
def report? (m : Machine) : Option Report :=
  m.last.ending?.map fun e => ⟨some m.last.player, .ended e, m.last.tally, m.stream.length⟩

/-- A run that goes on has more to tell. -/
theorem stream_ne_nil {m : Machine} (h : m.isOver = false) : m.stream ≠ [] := by
  obtain ⟨told, ht, -⟩ := stream_eq h
  simp [ht]

end Machine

namespace Courier

/-- A courier of a machine with some events accepted: it stands between two units of work of a
run that goes on, or has some of the last unit's events in hand, or came to the end. -/
inductive Tracks (m : Machine) (sent : List Event) : Courier → Prop where
  /-- Between two units of work everything told is accepted. -/
  | between {k : Nat} {stage : Stage} (hstage : stage = .looking ∨ stage = .resting)
      (hgoing : (m.after k).isOver = false) (hsent : sent = m.events k) :
      Tracks m sent ⟨m.after k, sent.length, stage⟩
  /-- What is accepted and what is in hand is everything told. -/
  | offering {k : Nat} {e : Event} {later : List Event} {pace : Bool}
      (hsent : sent ++ e :: later = m.events k) :
      Tracks m sent ⟨m.after k, sent.length, .offering e later pace⟩
  /-- At the end the whole stream is accepted. -/
  | done {r : Report} (hreport : m.report? = some r) (hsent : sent = m.stream) :
      Tracks m sent ⟨m.last, sent.length, .closed r⟩

variable {m : Machine} {sent : List Event}

/-- Before the first look nothing is told and nothing accepted. -/
theorem tracks_ofMachine (h : m.isOver = false) : Tracks m [] (.ofMachine m) :=
  .between (k := 0) (.inl rfl) h rfl

/-- With nothing in hand, either the run goes on or the courier is done. -/
theorem tracks_settle {k : Nat} (hsent : sent = m.events k) (stage : Stage) (pace : Bool) :
    Tracks m sent ((⟨m.after k, sent.length, stage⟩ : Courier).settle pace) := by
  unfold settle
  cases he : (m.after k).ending? with
  | none =>
    have hgoing : (m.after k).isOver = false := by
      rw [Machine.isOver, he]
      rfl
    exact .between (by cases pace <;> simp) hgoing hsent
  | some e =>
    have hover : (m.after k).isOver = true := by
      rw [Machine.isOver, he]
      rfl
    have hlast := Machine.last_of_isOver_after hover
    have hstream : sent = m.stream := by rw [hsent, Machine.stream_of_isOver_after hover]
    have hreport : m.report? = some ⟨some m.last.player, .ended e, m.last.tally, sent.length⟩ := by
      rw [Machine.report?, ← hlast, he, hstream]
      rfl
    simp only [hlast]
    exact .done hreport hstream

/-- With events in hand or none, the courier turns to what comes next. -/
theorem tracks_offerNext {k : Nat} {events : List Event} (hsent : sent ++ events = m.events k)
    (stage : Stage) (pace : Bool) :
    Tracks m sent ((⟨m.after k, sent.length, stage⟩ : Courier).offerNext events pace) := by
  cases events with
  | nil => exact tracks_settle (by simpa using hsent) stage pace
  | cons e later => exact .offering hsent

/-- A look at a signal that is not up lets the machine work. -/
theorem Tracks.look {c : Courier} (h : Tracks m sent c) (hstage : c.stage = .looking) :
    Tracks m sent (c.look false) := by
  cases h with
  | @between k stage _ _ hsent =>
    have hnext : sent ++ (m.after k).step.1.events = m.events (k + 1) := by
      rw [hsent, Machine.events_succ]
    have hlook := tracks_offerNext hnext stage (m.after k).step.1.pace
    rw [Machine.after_succ] at hlook
    exact hlook
  | offering => cases hstage
  | done => cases hstage

/-- An accepted event moves from the hand to what is accepted. -/
theorem Tracks.accepted {c : Courier} (h : Tracks m sent c) {e : Event} {later : List Event}
    {pace : Bool} (hstage : c.stage = .offering e later pace) :
    Tracks m (sent ++ [e]) (c.accepted later pace) := by
  cases h with
  | between hs =>
    rcases hs with rfl | rfl <;> cases hstage
  | @offering k e' later' pace' hsent =>
    cases hstage
    have hnext : sent ++ [e] ++ later = m.events k := by
      rw [List.append_assoc]
      exact hsent
    have hacc := tracks_offerNext hnext (.offering e later pace) pace
    rw [List.length_append] at hacc
    exact hacc
  | done => cases hstage

/-- A pause changes nothing but the stage. -/
theorem Tracks.wake {c : Courier} (h : Tracks m sent c) (hstage : c.stage = .resting) :
    Tracks m sent c.wake := by
  cases h with
  | between _ hgoing hsent => exact .between (.inl rfl) hgoing hsent
  | offering => cases hstage
  | done => cases hstage

/-- Between two units of work the events accepted are a proper prefix of the stream. -/
theorem Tracks.between_inv {c : Courier} (h : Tracks m sent c)
    (hstage : c.stage = .looking ∨ c.stage = .resting) :
    ∃ k rest, sent = m.events k ∧ m.stream = sent ++ rest ∧ rest ≠ [] := by
  cases h with
  | @between k _ _ hgoing hsent =>
    refine ⟨k, (m.after k).stream, hsent, ?_, Machine.stream_ne_nil hgoing⟩
    rw [hsent]
    exact Machine.stream_after m k
  | offering => rcases hstage with hs | hs <;> cases hs
  | done => rcases hstage with hs | hs <;> cases hs

/-- The event that is offered is the next one of the stream. -/
theorem Tracks.offering_inv {c : Courier} (h : Tracks m sent c) {e : Event}
    {later : List Event} {pace : Bool} (hstage : c.stage = .offering e later pace) :
    ∃ rest, m.stream = sent ++ e :: rest := by
  cases h with
  | between hs =>
    rcases hs with rfl | rfl <;> cases hstage
  | @offering k e' later' pace' hsent =>
    cases hstage
    refine ⟨later ++ (m.after k).stream, ?_⟩
    rw [Machine.stream_after m k, ← hsent, List.append_assoc, List.cons_append]
  | done => cases hstage

/-- The end of a courier that was not stopped carries the whole stream. -/
theorem Tracks.closed_inv {c : Courier} (h : Tracks m sent c) {r : Report}
    (hstage : c.stage = .closed r) : m.report? = some r ∧ sent = m.stream := by
  cases h with
  | between hs =>
    rcases hs with rfl | rfl <;> cases hstage
  | offering => cases hstage
  | done hreport hsent =>
    cases hstage
    exact ⟨hreport, hsent⟩

theorem Tracks.delivered_eq {c : Courier} (h : Tracks m sent c) : c.delivered = sent.length := by
  cases h <;> rfl

/-- A courier that tracks the stream is not about to sign off. -/
theorem Tracks.stage_ne_signing {c : Courier} (h : Tracks m sent c) : c.stage ≠ .signing := by
  cases h with
  | between hs => rcases hs with rfl | rfl <;> simp
  | offering => simp
  | done => simp

/-- What was sent is a part of the stream as long as the worker follows it. -/
theorem Tracks.stream_eq {c : Courier} (h : c.Tracks m sent) :
    ∃ rest, m.stream = sent ++ rest := by
  cases hc : c.stage with
  | looking =>
    obtain ⟨-, rest, -, hstream, -⟩ := h.between_inv (.inl hc)
    exact ⟨rest, hstream⟩
  | resting =>
    obtain ⟨-, rest, -, hstream, -⟩ := h.between_inv (.inr hc)
    exact ⟨rest, hstream⟩
  | offering e later pace =>
    obtain ⟨rest, hstream⟩ := h.offering_inv hc
    exact ⟨e :: rest, hstream⟩
  | signing => exact absurd hc h.stage_ne_signing
  | closed r =>
    obtain ⟨-, hsent⟩ := h.closed_inv hc
    exact ⟨[], by rw [hsent, List.append_nil]⟩

end Courier

end Labyrinth
