import Labyrinth.Run.Live
import Labyrinth.Proofs.Run.Delivery

/-!
# Every order of sends, receives and stops

A scene is a live run seen from outside: its queue, its stop signal, what the reader has
taken, and how far the worker has come with the event in its hand. Each look at the queue
and at the signal is a step of its own, so a receive or a stop can fall between any two of
them. In every order of steps the queue keeps its bound, a send finds a place, and what the
reader has or will get is the whole stream or a cancelled part of it.
-/

namespace Labyrinth

/-- How far the worker has come with the event in its hand. -/
inductive Grip where
  /-- It has not looked at the queue. -/
  | free
  /-- It saw the queue full. -/
  | full
  /-- It saw room in the queue. -/
  | clear
  /-- It gave the event up. -/
  | lost
  deriving DecidableEq, Repr

/-- A step in a scene. -/
inductive Act where
  /-- The worker does the next thing. -/
  | work
  /-- The reader takes an event. -/
  | receive
  /-- Someone raises the stop signal. -/
  | stop
  deriving DecidableEq, Repr

/-- A live run and its reader. -/
structure Scene where
  /-- The run. -/
  run : LiveRun
  /-- The event in the worker's hand. -/
  grip : Grip
  /-- What the reader has taken. -/
  received : List Event

namespace Scene

/-- Before the first step. -/
def ofRun (r : LiveRun) (received : List Event) : Scene := ⟨r, .free, received⟩

/-- The worker goes on with the event in its hand. -/
def send (buffer : Option Nat) (x : Scene) (e : Event) (later : List Event) (pace : Bool) :
    Scene :=
  match x.grip with
  | .free => { x with grip := if x.run.hasRoom buffer e then .clear else .full }
  | .full => { x with grip := if x.run.stopped then .lost else .free }
  | .clear =>
    match x.run.trySend buffer e with
    | (true, r) => ofRun { r with courier := r.courier.accepted later pace } x.received
    | (false, _) => { x with grip := .lost }
  | .lost =>
    ofRun { x.run with courier := x.run.courier.refused x.run.stopped, stopped := true } x.received

/-- The worker does the next thing: it looks at the signal and lets the machine work, goes on
with an event, ends a pause, or signs off. -/
def work (buffer : Option Nat) (x : Scene) : Scene :=
  match x.run.courier.stage with
  | .closed _ => x
  | .looking => ofRun { x.run with courier := x.run.courier.look x.run.stopped } x.received
  | .offering e later pace => x.send buffer e later pace
  | .resting => ofRun { x.run with courier := x.run.courier.wake } x.received
  | .signing =>
    let last := x.run.trySend buffer .cancelled
    ofRun { last.2 with courier := last.2.courier.signed last.1 } x.received

/-- The reader takes the oldest event, if there is one. -/
def receive (x : Scene) : Scene :=
  match x.run.queue with
  | [] => x
  | e :: queue => { x with run := { x.run with queue := queue }, received := x.received ++ [e] }

/-- The stop signal goes up. -/
def stop (x : Scene) : Scene := { x with run := { x.run with stopped := true } }

/-- One step. -/
def act (buffer : Option Nat) (x : Scene) : Act → Scene
  | .work => x.work buffer
  | .receive => x.receive
  | .stop => x.stop

/-- Steps in some order. -/
def perform (buffer : Option Nat) (x : Scene) (acts : List Act) : Scene :=
  acts.foldl (act buffer) x

/-- What was sent: what the reader has taken, and then the queue. -/
def sent (x : Scene) : List Event := x.received ++ x.run.queue

/-- How many events in the queue do not end the stream. -/
def ordinary (x : Scene) : Nat := x.run.queue.countP (!·.isTerminal)

/-- The worker is about to send an event without waiting. -/
def isSending (x : Scene) : Prop :=
  (x.grip = .clear ∧ ∃ e later pace, x.run.courier.stage = .offering e later pace) ∨
    x.run.courier.stage = .signing

/-- The stop signal was raised while the run was not over. -/
def StopsEarly (buffer : Option Nat) (x : Scene) (acts : List Act) : Prop :=
  ∃ before after, acts = before ++ .stop :: after ∧ (x.perform buffer before).run.isOver = false

end Scene

variable {m : Machine} {buffer : Option Nat}

/-- Events that leave the stream open do not count as its ends. -/
theorem countP_isTerminal_eq_zero {told : List Event} (h : ∀ e ∈ told, e.isTerminal = false) :
    told.countP Event.isTerminal = 0 := by
  rw [List.countP_eq_zero]
  intro e he
  rw [h e he]
  exact Bool.false_ne_true

/-- Where the worker stands with some events sent, and the stop signal up or not: it follows
the stream, or is about to sign off a part of it, or has signed off. -/
inductive Stands (m : Machine) : List Event → Courier → Bool → Prop where
  /-- What was sent and what is in hand is what the machine told. -/
  | following {sent : List Event} {c : Courier} {stopped : Bool} (htracks : c.Tracks m sent) :
      Stands m sent c stopped
  /-- The signal was seen, and the note is not sent. -/
  | signing {sent rest : List Event} {c : Courier} (hstage : c.stage = .signing)
      (hdelivered : c.delivered = sent.length) (hstream : m.stream = sent ++ rest)
      (hrest : rest ≠ []) : Stands m sent c true
  /-- The note was sent. -/
  | signed {sent rest : List Event} {c : Courier} {r : Report} (hstage : c.stage = .closed r)
      (hstream : m.stream = sent ++ rest) (hrest : rest ≠ [])
      (hcut : CutShort r (sent.length + 1)) : Stands m (sent ++ [.cancelled]) c true

namespace Stands

variable {sent : List Event} {c : Courier} {stopped : Bool}

/-- A worker with events in hand or none, but not at its end, follows the stream. -/
theorem tracks (h : Stands m sent c stopped) (hsigning : c.stage ≠ .signing)
    (hclosed : c.report? = none) : c.Tracks m sent := by
  cases h with
  | following htracks => exact htracks
  | signing hstage => exact absurd hstage hsigning
  | signed hstage => simp [Courier.report?, hstage] at hclosed

/-- A worker about to sign off has sent a proper part of the stream. -/
theorem signing_inv (h : Stands m sent c stopped) (hstage : c.stage = .signing) :
    stopped = true ∧ c.delivered = sent.length ∧ ∃ rest, m.stream = sent ++ rest ∧ rest ≠ [] := by
  cases h with
  | following htracks => exact absurd hstage htracks.stage_ne_signing
  | signing _ hdelivered hstream hrest => exact ⟨rfl, hdelivered, _, hstream, hrest⟩
  | signed hclosed => rw [hstage] at hclosed; cases hclosed

/-- A worker at its end has sent the whole stream or signed off a part of it. -/
theorem closed_inv (h : Stands m sent c stopped) {r : Report} (hstage : c.stage = .closed r) :
    (sent = m.stream ∧ m.report? = some r) ∨
      (stopped = true ∧ ∃ part rest, m.stream = part ++ rest ∧ rest ≠ [] ∧
        sent = part ++ [.cancelled] ∧ CutShort r (part.length + 1)) := by
  cases h with
  | following htracks =>
    obtain ⟨hreport, hsent⟩ := htracks.closed_inv hstage
    exact .inl ⟨hsent, hreport⟩
  | signing hsigning => rw [hstage] at hsigning; cases hsigning
  | signed hclosed hstream hrest hcut =>
    rw [hstage] at hclosed
    cases hclosed
    exact .inr ⟨rfl, _, _, hstream, hrest, rfl, hcut⟩

/-- The signal may go up at any time. -/
theorem stop (h : Stands m sent c stopped) : Stands m sent c true := by
  cases h with
  | following htracks => exact .following htracks
  | signing hstage hdelivered hstream hrest => exact .signing hstage hdelivered hstream hrest
  | signed hstage hstream hrest hcut => exact .signed hstage hstream hrest hcut

/-- At most one event that ends the stream was sent. -/
theorem countP_isTerminal_le (hm : m.isOver = false) (h : Stands m sent c stopped) :
    sent.countP Event.isTerminal ≤ 1 := by
  have hopen {told : List Event} (ht : ∀ e ∈ told, e.isTerminal = false) (e : Event) :
      (told ++ [e]).countP Event.isTerminal ≤ 1 := by
    rw [List.countP_append, countP_isTerminal_eq_zero ht, Nat.zero_add]
    exact List.countP_le_length
  cases h with
  | following htracks =>
    obtain ⟨rest, hstream⟩ := htracks.stream_eq
    obtain ⟨told, htold, ht⟩ := Machine.stream_eq hm
    have hle : sent.countP Event.isTerminal ≤ m.stream.countP Event.isTerminal := by
      rw [hstream, List.countP_append]
      exact Nat.le_add_right _ _
    rw [htold] at hle
    exact Nat.le_trans hle (hopen ht _)
  | signing hstage hdelivered hstream hrest =>
    rw [countP_isTerminal_eq_zero (Machine.not_isTerminal_of_stream hm hstream hrest)]
    exact Nat.zero_le 1
  | signed hstage hstream hrest => exact hopen (Machine.not_isTerminal_of_stream hm hstream hrest) _

end Stands

namespace Scene

/-- What holds after every step: the reader is there, the worker stands in the stream with what
was sent, what it saw of the queue and the signal still holds, and the queue keeps its bound. -/
structure Sound (m : Machine) (buffer : Option Nat) (x : Scene) : Prop where
  /-- The reader is there. -/
  present : x.run.abandoned = false
  /-- The worker stands in the stream. -/
  stands : Stands m x.sent x.run.courier x.run.stopped
  /-- Room that was seen is there. -/
  clear : x.grip = .clear → ∀ e later pace, x.run.courier.stage = .offering e later pace →
    x.run.hasRoom buffer e = true
  /-- An event is given up after the signal was seen. -/
  lost : x.grip = .lost → x.run.stopped = true
  /-- The bound is kept. -/
  bounded : ∀ n ∈ buffer, x.ordinary ≤ n

variable {x : Scene}

/-- With no event in hand, what was seen does not matter. -/
theorem sound_ofRun {r : LiveRun} {received : List Event} (hpresent : r.abandoned = false)
    (hstands : Stands m (received ++ r.queue) r.courier r.stopped)
    (hbounded : ∀ n ∈ buffer, r.queue.countP (!·.isTerminal) ≤ n) :
    Sound m buffer (ofRun r received) :=
  ⟨hpresent, hstands, nofun, nofun, hbounded⟩

/-- The queue has ordinary events and such as end the stream. -/
theorem length_queue_eq (x : Scene) :
    x.run.queue.length = x.ordinary + x.run.queue.countP Event.isTerminal := by
  have hlength := List.length_eq_countP_add_countP Event.isTerminal (l := x.run.queue)
  simp only [Bool.not_eq_true, Bool.decide_eq_false] at hlength
  rw [hlength, Nat.add_comm, ordinary]

/-- The queue holds at most one event that ends the stream. -/
theorem Sound.length_queue_le (h : Sound m buffer x) (hm : m.isOver = false) :
    x.run.queue.length ≤ x.ordinary + 1 := by
  have hone := h.stands.countP_isTerminal_le hm
  rw [sent, List.countP_append] at hone
  rw [length_queue_eq]
  omega

/-- As long as an event is to be sent the stream is open. -/
theorem Sound.length_queue_of_isSending (h : Sound m buffer x) (hm : m.isOver = false)
    (hsending : x.isSending) : x.run.queue.length = x.ordinary := by
  have hopen : ∃ rest, m.stream = x.sent ++ rest ∧ rest ≠ [] := by
    rcases hsending with ⟨-, e, later, pace, hstage⟩ | hstage
    · have htracks := h.stands.tracks (by simp [hstage]) (by simp [Courier.report?, hstage])
      obtain ⟨rest, hstream⟩ := htracks.offering_inv hstage
      exact ⟨e :: rest, hstream, List.cons_ne_nil e rest⟩
    · obtain ⟨-, -, hstream⟩ := h.stands.signing_inv hstage
      exact hstream
  obtain ⟨rest, hstream, hrest⟩ := hopen
  have hzero := countP_isTerminal_eq_zero (Machine.not_isTerminal_of_stream hm hstream hrest)
  rw [sent, List.countP_append] at hzero
  rw [length_queue_eq]
  omega

/-- A send never finds the queue full. -/
theorem Sound.not_isFull (h : Sound m buffer x) (hm : m.isOver = false)
    (hsending : x.isSending) : x.run.isFull buffer = false := by
  cases buffer with
  | none => rfl
  | some n =>
    have hbound := h.bounded n rfl
    rw [← h.length_queue_of_isSending hm hsending] at hbound
    simp only [LiveRun.isFull, Option.any_some, decide_eq_false_iff_not]
    omega

/-- A send succeeds. -/
theorem Sound.trySend_eq (h : Sound m buffer x) (hm : m.isOver = false) (hsending : x.isSending)
    (e : Event) :
    x.run.trySend buffer e = (true, { x.run with queue := x.run.queue ++ [e] }) := by
  simp [LiveRun.trySend, h.present, h.not_isFull hm hsending]

/-- Taking an event changes nothing but where it is. -/
theorem Sound.receive (h : Sound m buffer x) : Sound m buffer x.receive := by
  unfold Scene.receive
  split
  · exact h
  · rename_i e queue hqueue
    refine ⟨h.present, ?_, ?_, h.lost, ?_⟩
    · have hstands := h.stands
      rw [sent, hqueue] at hstands
      simpa [sent] using hstands
    · intro hgrip e' later pace hstage
      have hroom := h.clear hgrip e' later pace hstage
      rw [LiveRun.hasRoom, Bool.or_eq_true] at hroom ⊢
      refine hroom.imp_right ?_
      intro hall
      cases buffer with
      | none => rfl
      | some n =>
        simp only [Option.all_some, decide_eq_true_eq, hqueue, List.length_cons] at hall ⊢
        omega
    · intro n hn
      have hbound := h.bounded n hn
      rw [ordinary, hqueue, List.countP_cons] at hbound
      exact Nat.le_trans (Nat.le_add_right _ _) hbound

/-- The signal may go up at any time. -/
theorem Sound.stop (h : Sound m buffer x) : Sound m buffer x.stop :=
  ⟨h.present, h.stands.stop, h.clear, fun _ => rfl, h.bounded⟩

/-- An event that is sent with room in the queue keeps its bound. -/
theorem Sound.countP_send_le (h : Sound m buffer x) {e : Event}
    (hroom : x.run.hasRoom buffer e = true) :
    ∀ n ∈ buffer, (x.run.queue ++ [e]).countP (!·.isTerminal) ≤ n := by
  intro n hn
  have hbound := h.bounded n hn
  cases hn
  simp only [ordinary] at hbound
  simp only [LiveRun.hasRoom, Bool.or_eq_true, Option.all_some, decide_eq_true_eq] at hroom
  rw [List.countP_append]
  rcases hroom with hterminal | hlt
  · simpa [hterminal] using hbound
  · have hcount : x.run.queue.countP (!·.isTerminal) ≤ x.run.queue.length := List.countP_le_length
    have hone : [e].countP (!·.isTerminal) ≤ [e].length := List.countP_le_length
    rw [List.length_singleton] at hone
    omega

/-- The worker goes on with the event in its hand. -/
theorem Sound.send (h : Sound m buffer x) (hm : m.isOver = false) {e : Event}
    {later : List Event} {pace : Bool} (hstage : x.run.courier.stage = .offering e later pace) :
    Sound m buffer (x.send buffer e later pace) := by
  have htracks := h.stands.tracks (by simp [hstage]) (by simp [Courier.report?, hstage])
  unfold Scene.send
  cases hgrip : x.grip with
  | free =>
    refine ⟨h.present, h.stands, ?_, ?_, h.bounded⟩
    · intro hclear e' later' pace' hstage'
      simp only at hclear hstage' ⊢
      rw [hstage] at hstage'
      cases hstage'
      split at hclear
      · assumption
      · cases hclear
    · intro hlost
      simp only at hlost
      split at hlost <;> cases hlost
  | full =>
    refine ⟨h.present, h.stands, ?_, ?_, h.bounded⟩
    · intro hclear
      simp only at hclear
      split at hclear <;> cases hclear
    · intro hlost
      simp only at hlost ⊢
      split at hlost
      · assumption
      · cases hlost
  | clear =>
    have hsending : x.isSending := .inl ⟨hgrip, e, later, pace, hstage⟩
    have hsent : Stands m (x.sent ++ [e]) (x.run.courier.accepted later pace) x.run.stopped :=
      .following (htracks.accepted hstage)
    rw [sent, List.append_assoc] at hsent
    rw [h.trySend_eq hm hsending e]
    exact sound_ofRun h.present hsent (h.countP_send_le (h.clear hgrip e later pace hstage))
  | lost =>
    have hup := h.lost hgrip
    obtain ⟨rest, hstream⟩ := htracks.offering_inv hstage
    refine sound_ofRun h.present ?_ h.bounded
    rw [hup]
    exact .signing rfl htracks.delivered_eq hstream (List.cons_ne_nil e rest)

/-- Whatever the worker does next, all this still holds. -/
theorem Sound.work (h : Sound m buffer x) (hm : m.isOver = false) :
    Sound m buffer (x.work buffer) := by
  unfold Scene.work
  split
  · exact h
  · rename_i hstage
    have htracks := h.stands.tracks (by simp [hstage]) (by simp [Courier.report?, hstage])
    refine sound_ofRun h.present ?_ h.bounded
    cases hstopped : x.run.stopped with
    | false => exact .following (htracks.look hstage)
    | true =>
      obtain ⟨-, rest, -, hstream, hrest⟩ := htracks.between_inv (.inl hstage)
      exact .signing rfl htracks.delivered_eq hstream hrest
  · rename_i e later pace hstage
    exact h.send hm hstage
  · rename_i hstage
    have htracks := h.stands.tracks (by simp [hstage]) (by simp [Courier.report?, hstage])
    exact sound_ofRun h.present (.following (htracks.wake hstage)) h.bounded
  · rename_i hstage
    obtain ⟨hup, hdelivered, rest, hstream, hrest⟩ := h.stands.signing_inv hstage
    rw [h.trySend_eq hm (.inr hstage)]
    refine sound_ofRun h.present ?_ ?_
    · simp only
      rw [hup, ← List.append_assoc]
      refine .signed rfl hstream hrest ⟨rfl, rfl, ?_⟩
      exact congrArg (· + 1) hdelivered
    · exact h.countP_send_le rfl

/-- Every step keeps all this. -/
theorem Sound.act (h : Sound m buffer x) (hm : m.isOver = false) (a : Act) :
    Sound m buffer (x.act buffer a) := by
  cases a with
  | work => exact h.work hm
  | receive => exact h.receive
  | stop => exact h.stop

/-- So do any steps in any order. -/
theorem Sound.perform (h : Sound m buffer x) (hm : m.isOver = false) (acts : List Act) :
    Sound m buffer (x.perform buffer acts) := by
  induction acts generalizing x with
  | nil => exact h
  | cons a acts ih => exact ih (h.act hm a)

theorem stage_of_report? {r : Report} (hr : x.run.report? = some r) :
    x.run.courier.stage = .closed r := by
  cases hc : x.run.courier.stage <;> simp_all [LiveRun.report?, Courier.report?]

/-- A worker that came to its end stays there. -/
theorem report?_act {r : Report} (hr : x.run.report? = some r) (a : Act) :
    (x.act buffer a).run.report? = some r := by
  cases a with
  | work => simpa [act, Scene.work, stage_of_report? hr] using hr
  | receive =>
    simp only [act, Scene.receive]
    split <;> exact hr
  | stop => exact hr

theorem report?_perform (buffer : Option Nat) {r : Report} (hr : x.run.report? = some r)
    (acts : List Act) : (x.perform buffer acts).run.report? = some r := by
  induction acts generalizing x with
  | nil => exact hr
  | cons a acts ih => exact ih (report?_act hr a)

/-- Without the signal a run is not cancelled. -/
theorem Sound.outcome_ne_cancelled (h : Sound m buffer x) (hdown : x.run.stopped = false)
    {r : Report} (hr : x.run.report? = some r) : r.outcome ≠ .cancelled := by
  rcases h.stands.closed_inv (stage_of_report? hr) with ⟨-, hreport⟩ | ⟨hup, -⟩
  · obtain ⟨e, -, rfl⟩ := Option.map_eq_some_iff.mp hreport
    exact nofun
  · rw [hdown] at hup
    cases hup

/-- The worker does not raise the signal itself. -/
theorem Sound.stopped_work (h : Sound m buffer x) (hdown : x.run.stopped = false) :
    (x.work buffer).run.stopped = false := by
  have htry (e : Event) : (x.run.trySend buffer e).2.stopped = false := by
    rw [LiveRun.trySend]
    split <;> exact hdown
  unfold Scene.work
  split
  · exact hdown
  · exact hdown
  · rename_i e later pace hstage
    unfold Scene.send
    split
    · exact hdown
    · exact hdown
    · have hr := htry e
      split <;> simp_all [ofRun]
    · rename_i hgrip
      rw [h.lost hgrip] at hdown
      cases hdown
  · exact hdown
  · exact htry _

/-- A run is cancelled only by a signal that went up before its end. -/
theorem Sound.stopsEarly (h : Sound m buffer x) (hm : m.isOver = false)
    (hdown : x.run.stopped = false) {acts : List Act} {r : Report}
    (hr : (x.perform buffer acts).run.report? = some r) (hcancelled : r.outcome = .cancelled) :
    StopsEarly buffer x acts := by
  induction acts generalizing x with
  | nil => exact absurd hcancelled (h.outcome_ne_cancelled hdown hr)
  | cons a acts ih =>
    have hgoing : x.run.isOver = false := by
      rw [LiveRun.isOver, Option.isSome_eq_false_iff, Option.isNone_iff_eq_none]
      cases hx : x.run.report? with
      | none => rfl
      | some r' =>
        have hr' := report?_perform buffer hx (a :: acts)
        rw [hr] at hr'
        cases hr'
        exact absurd hcancelled (h.outcome_ne_cancelled hdown hx)
    have hlater (hdown' : (x.act buffer a).run.stopped = false) :
        StopsEarly buffer x (a :: acts) := by
      obtain ⟨before, after, hacts, hbefore⟩ := ih (h.act hm a) hdown' hr
      exact ⟨a :: before, after, by rw [hacts, List.cons_append], hbefore⟩
    cases a with
    | stop => exact ⟨[], acts, rfl, hgoing⟩
    | work => exact hlater (h.stopped_work hdown)
    | receive =>
      refine hlater ?_
      simp only [Scene.act, Scene.receive]
      split <;> exact hdown

/-- In every order of worker steps, receives and stops the queue keeps its bound, with one more
place for the event that ends the stream, and a send never finds it full. When the worker has
come to its end, what the reader has and what is still queued is the whole stream, with the
summary of a run that is carried through; or a proper part of the stream and the note of a
cancelled run, and then a stop came before the end. Either way one event ends it, the last. -/
theorem every_order_delivers (maxDepth : Nat) (program : Program) (maze : Maze) (player : Player)
    (buffer : Option Nat) (acts : List Act) :
    let start := ofRun (.start maxDepth program maze player) []
    let whole := Run.collect maxDepth program maze player
    let x := start.perform buffer acts
    (∀ n ∈ buffer, x.ordinary ≤ n ∧ x.run.queue.length ≤ n + 1) ∧
    (x.isSending → x.run.isFull buffer = false ∧ ∀ e, (x.run.trySend buffer e).1 = true) ∧
    ∀ r, x.run.report? = some r →
      ((x.sent = whole.1 ∧ r = whole.2) ∨
        ∃ part rest, whole.1 = part ++ rest ∧ rest ≠ [] ∧ x.sent = part ++ [.cancelled] ∧
          CutShort r (part.length + 1) ∧ start.StopsEarly buffer acts) ∧
      ∃ told last, x.sent = told ++ [last] ∧ last.isTerminal = true ∧
        ∀ e ∈ told, e.isTerminal = false := by
  intro start whole x
  let m := Machine.start program maze player maxDepth
  have hm : m.isOver = false := rfl
  obtain ⟨r₀, hr₀, hwhole⟩ := Run.collect_eq maxDepth program maze player
  have hstart : Sound m buffer start :=
    sound_ofRun rfl (.following (Courier.tracks_ofMachine hm)) (fun n _ => Nat.zero_le n)
  have hsound : Sound m buffer x := hstart.perform hm acts
  refine ⟨?_, ?_, ?_⟩
  · intro n hn
    have hbound := hsound.bounded n hn
    exact ⟨hbound, Nat.le_trans (hsound.length_queue_le hm) (Nat.succ_le_succ hbound)⟩
  · intro hsending
    refine ⟨hsound.not_isFull hm hsending, ?_⟩
    intro e
    rw [hsound.trySend_eq hm hsending e]
  · intro r hr
    have hstream : whole.1 = m.stream := congrArg Prod.fst hwhole
    have hsummary : whole.2 = r₀ := congrArg Prod.snd hwhole
    rcases hsound.stands.closed_inv (stage_of_report? hr) with
      ⟨hsent, hreport⟩ | ⟨-, part, rest, hpart, hrest, hsent, hcut⟩
    · rw [hr₀] at hreport
      cases hreport
      refine ⟨.inl ⟨hsent.trans hstream.symm, hsummary.symm⟩, ?_⟩
      obtain ⟨told, htold, hopen⟩ := Machine.stream_eq hm
      exact ⟨told, _, hsent.trans htold, rfl, hopen⟩
    · have hearly := hstart.stopsEarly hm rfl hr hcut.outcome_eq
      refine ⟨.inr ⟨part, rest, hstream.trans hpart, hrest, hsent, hcut, hearly⟩, ?_⟩
      exact ⟨part, _, hsent, rfl, Machine.not_isTerminal_of_stream hm hpart hrest⟩

/-- A run that is stopped while the queue is full is signed off, with room for the note. -/
theorem delivers_of_stop_on_full_queue :
    let maze : Maze := ⟨.blank 3 1, Layout.fault?_eq_none_iff.mp (by decide)⟩
    let player : Player := ⟨⟨0, 0⟩, 0, ⟨0, 0⟩⟩
    let start := ofRun (.start 10 [.move .right] maze player) []
    let acts := [.work, .work, .work, .work, .work, .stop, .work, .work, .work]
    let x := start.perform (some 1) acts
    x.run.queue = [.started player, .cancelled] ∧ start.StopsEarly (some 1) acts := by
  intro maze player start acts x
  obtain ⟨-, -, hends⟩ := every_order_delivers 10 [.move .right] maze player (some 1) acts
  have hcancelled : x.run.report?.map (·.outcome) = some .cancelled := by decide
  obtain ⟨r, hr, hr'⟩ := Option.map_eq_some_iff.mp hcancelled
  obtain ⟨h | ⟨part, rest, -, -, -, -, hearly⟩, -⟩ := hends r hr
  · obtain ⟨r₀, hr₀, hcollect⟩ := Run.collect_eq 10 [.move .right] maze player
    rw [h.2, hcollect] at hr'
    obtain ⟨e, -, rfl⟩ := Option.map_eq_some_iff.mp hr₀
    cases hr'
  · exact ⟨by decide, hearly⟩

end Scene

end Labyrinth
