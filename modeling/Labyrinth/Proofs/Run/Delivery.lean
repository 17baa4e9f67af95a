import Labyrinth.Run.Drive
import Labyrinth.Proofs.Run.Tracking

/-!
# How a delivery ends

A listener can refuse any event and raise the stop signal at any time. A recorded
listener behaves as before and keeps a history of all that was offered, replied and looked
up. In terms of the history a run has three ends: the stream was carried through, the run
was cancelled and signed off, or it was dropped after a refusal.
-/

namespace Labyrinth

/-- Something that happened between a run and its listener. -/
inductive Entry where
  /-- An event was offered and replied to. -/
  | offered (event : Event) (reply : Reply)
  /-- The signal was looked at; it was raised, or not, since the last look. -/
  | looked (asked : Bool)
  deriving DecidableEq, Repr

namespace Entry

/-- Whether the stop signal was raised there. -/
def raises : Entry → Bool
  | offered _ reply => reply.stops
  | looked asked => asked

/-- The events offered in a history, each with whether it was accepted. -/
def offers (h : List Entry) : List (Event × Bool) :=
  h.filterMap fun
    | offered e reply => some (e, reply.accepted)
    | looked _ => none

/-- Whether the stop signal is up after a history, if it was up or not before. -/
def isUp (up : Bool) (h : List Entry) : Bool := up || h.any raises

theorem offers_append (h k : List Entry) : offers (h ++ k) = offers h ++ offers k := by
  simp [offers]

theorem isUp_append (up : Bool) (h k : List Entry) : isUp up (h ++ k) = isUp (isUp up h) k := by
  simp [isUp, Bool.or_assoc]

end Entry

namespace Listener

/-- The same listener, with a history of everything. -/
def recorded {σ : Type} (l : Listener σ) : Listener (List Entry × σ) where
  offer e s := ((l.offer e s.2).1, s.1 ++ [.offered e (l.offer e s.2).1], (l.offer e s.2).2)
  poll s := ((l.poll s.2).1, s.1 ++ [.looked (l.poll s.2).1], (l.poll s.2).2)

end Listener

open Entry

/-- The run was carried through: every event of the stream was offered once, in order, and
accepted, nothing else was offered, and the summary is that of the machine's own end. -/
structure CarriedThrough (m : Machine) (h : List Entry) (r : Report) : Prop where
  /-- The stream was offered and accepted. -/
  offers_eq : offers h = m.stream.map (·, true)
  /-- The summary has the machine's ending and final player, and counts the whole stream. -/
  report_eq : m.report? = some r

/-- The summary of a cancelled run with so many events delivered. -/
structure CutShort (r : Report) (delivered : Nat) : Prop where
  /-- It is cancelled. -/
  outcome_eq : r.outcome = .cancelled
  /-- It has no final player. -/
  finalPlayer_eq : r.finalPlayer = none
  /-- It counts the events delivered. -/
  delivered_eq : r.delivered = delivered

/-- The run was cancelled after some events were accepted: the signal was up at a look, and the
last thing offered, exactly once, is the note of a cancelled run. -/
inductive SignedOff (m : Machine) (up : Bool) : List Entry → Report → Prop where
  /-- The look came between two units of work. -/
  | between {h : List Entry} {asked : Bool} {note : Reply} {sent rest : List Event} {k : Nat}
      {r : Report} (hstream : m.stream = sent ++ rest) (hrest : rest ≠ [])
      (hunit : sent = m.events k) (hoffers : offers h = sent.map (·, true))
      (hup : isUp up (h ++ [.looked asked]) = true)
      (hreport : CutShort r (sent.length + if note.accepted then 1 else 0)) :
      SignedOff m up (h ++ [.looked asked] ++ [.offered .cancelled note]) r
  /-- The look came after the next event of the stream had been refused. -/
  | during {h : List Entry} {e : Event} {reply note : Reply} {asked : Bool}
      {sent rest : List Event} {r : Report} (hstream : m.stream = sent ++ e :: rest)
      (hoffers : offers h = sent.map (·, true)) (hrefused : reply.accepted = false)
      (hup : isUp up (h ++ [.offered e reply, .looked asked]) = true)
      (hreport : CutShort r (sent.length + if note.accepted then 1 else 0)) :
      SignedOff m up (h ++ [.offered e reply, .looked asked] ++ [.offered .cancelled note]) r

/-- The run was dropped: after some events were accepted the next one was refused while the
signal was not up, nothing was offered any more, and the signal was raised. -/
inductive Dropped (m : Machine) (up : Bool) : List Entry → Report → Bool → Prop where
  /-- The look after the refusal found the signal down. -/
  | refused {h : List Entry} {e : Event} {reply : Reply} {asked : Bool}
      {sent rest : List Event} {r : Report} (hstream : m.stream = sent ++ e :: rest)
      (hoffers : offers h = sent.map (·, true)) (hrefused : reply.accepted = false)
      (hup : isUp up (h ++ [.offered e reply, .looked asked]) = false)
      (hreport : CutShort r sent.length) :
      Dropped m up (h ++ [.offered e reply, .looked asked]) r true

section

variable {σ : Type} {m : Machine} {up : Bool} {h : List Entry} {r : Report} {raised : Bool}

/-- The summary of a run that comes to its own end is not that of a cancelled one. -/
theorem CutShort.report?_ne {n : Nat} (hs : CutShort r n) : m.report? ≠ some r := by
  intro hr
  obtain ⟨e, -, rfl⟩ := Option.map_eq_some_iff.mp hr
  exact nomatch hs.outcome_eq

/-- The summary of a run that was carried through is not that of a cancelled one. -/
theorem CarriedThrough.not_cutShort (hc : CarriedThrough m h r) {n : Nat} : ¬ CutShort r n :=
  fun hs => hs.report?_ne hc.report_eq

theorem SignedOff.cutShort (hs : SignedOff m up h r) : ∃ n, CutShort r n := by
  cases hs with
  | between _ _ _ _ _ hreport => exact ⟨_, hreport⟩
  | during _ _ _ _ hreport => exact ⟨_, hreport⟩

theorem Dropped.cutShort (hd : Dropped m up h r raised) : ∃ n, CutShort r n := by
  cases hd with
  | refused _ _ _ _ hreport => exact ⟨_, hreport⟩

/-- A run that signed off ends with an offer. -/
theorem SignedOff.getLast? (hs : SignedOff m up h r) :
    ∃ note, h.getLast? = some (.offered .cancelled note) := by
  cases hs with
  | between => exact ⟨_, List.getLast?_concat⟩
  | during => exact ⟨_, List.getLast?_concat⟩

/-- A dropped run ends with a look. -/
theorem Dropped.getLast? (hd : Dropped m up h r raised) :
    ∃ asked, h.getLast? = some (.looked asked) := by
  cases hd with
  | @refused _ _ _ asked => exact ⟨asked, by simp⟩

/-- No run has two of the three ends. -/
theorem SignedOff.not_dropped (hs : SignedOff m up h r) : ¬ Dropped m up h r raised := by
  intro hd
  obtain ⟨note, hn⟩ := hs.getLast?
  obtain ⟨asked, ha⟩ := hd.getLast?
  rw [hn] at ha
  cases ha

theorem drive_closed {l : Listener σ} {c : Courier} (hc : c.stage = .closed r) (stopped : Bool)
    (s : σ) : drive l c stopped s = ⟨r, stopped, s⟩ := by
  rw [drive]
  split <;> simp_all

theorem drive_looking {l : Listener σ} {c : Courier} (hc : c.stage = .looking) (stopped : Bool)
    (s : σ) : drive l c stopped s =
      drive l (c.look (stopped || (l.poll s).1)) (stopped || (l.poll s).1) (l.poll s).2 := by
  rw [drive]
  split <;> simp_all

theorem drive_accepted {l : Listener σ} {c : Courier} {e : Event} {later : List Event}
    {pace : Bool} (hc : c.stage = .offering e later pace) (stopped : Bool) {s : σ}
    (ha : (l.offer e s).1.accepted = true) : drive l c stopped s =
      drive l (c.accepted later pace) (stopped || (l.offer e s).1.stops) (l.offer e s).2 := by
  rw [drive]
  split <;> simp_all

theorem drive_refused {l : Listener σ} {c : Courier} {e : Event} {later : List Event}
    {pace : Bool} (hc : c.stage = .offering e later pace) (stopped : Bool) {s : σ}
    (ha : (l.offer e s).1.accepted = false) : drive l c stopped s =
      drive l (c.refused (stopped || (l.offer e s).1.stops || (l.poll (l.offer e s).2).1)) true
        (l.poll (l.offer e s).2).2 := by
  rw [drive]
  split <;> simp_all

theorem drive_resting {l : Listener σ} {c : Courier} (hc : c.stage = .resting) (stopped : Bool)
    (s : σ) : drive l c stopped s = drive l c.wake stopped s := by
  rw [drive]
  split <;> simp_all

theorem drive_signing {l : Listener σ} {c : Courier} (hc : c.stage = .signing) (stopped : Bool)
    (s : σ) : drive l c stopped s =
      drive l (c.signed (l.offer .cancelled s).1.accepted)
        (stopped || (l.offer .cancelled s).1.stops) (l.offer .cancelled s).2 := by
  rw [drive]
  split <;> simp_all

/-- Induction along a run under a listener, one case for each thing that a courier can be about
to do and, for an offer, one for each reply. -/
theorem drive_induction (l : Listener σ) {motive : Courier → Bool → σ → Prop}
    (closed : ∀ c stopped s r, c.stage = .closed r → motive c stopped s)
    (looking : ∀ c stopped s, c.stage = .looking →
      motive (c.look (stopped || (l.poll s).1)) (stopped || (l.poll s).1) (l.poll s).2 →
      motive c stopped s)
    (accepted : ∀ c stopped s e later pace, c.stage = .offering e later pace →
      (l.offer e s).1.accepted = true →
      motive (c.accepted later pace) (stopped || (l.offer e s).1.stops) (l.offer e s).2 →
      motive c stopped s)
    (refused : ∀ c stopped s e later pace, c.stage = .offering e later pace →
      (l.offer e s).1.accepted = false →
      motive (c.refused (stopped || (l.offer e s).1.stops || (l.poll (l.offer e s).2).1)) true
        (l.poll (l.offer e s).2).2 →
      motive c stopped s)
    (resting : ∀ c stopped s, c.stage = .resting → motive c.wake stopped s → motive c stopped s)
    (signing : ∀ c stopped s, c.stage = .signing →
      motive (c.signed (l.offer .cancelled s).1.accepted)
        (stopped || (l.offer .cancelled s).1.stops) (l.offer .cancelled s).2 →
      motive c stopped s)
    (c : Courier) (stopped : Bool) (s : σ) : motive c stopped s := by
  refine drive.induct l motive closed ?_ ?_ ?_ resting ?_ c stopped s
  · intro c stopped s hc asked s' hp _ ih
    exact looking c stopped s hc (by rw [hp]; exact ih)
  · intro c stopped s e later pace hc reply s' hr _ ha ih
    exact accepted c stopped s e later pace hc (by rw [hr]; exact ha) (by rw [hr]; exact ih)
  · intro c stopped s e later pace hc reply s' hr _ ha asked s'' hp ih
    exact refused c stopped s e later pace hc (by rw [hr]; simpa using ha)
      (by rw [hr, hp]; exact ih)
  · intro c stopped s hc reply s' hr ih
    exact signing c stopped s hc (by rw [hr]; exact ih)

/-- A history does not disturb the run. -/
theorem drive_recorded (l : Listener σ) (c : Courier) (stopped : Bool) (s : σ) (h : List Entry) :
    ∃ k, drive l.recorded c stopped (h, s) =
      ⟨(drive l c stopped s).report, (drive l c stopped s).stopped,
        k, (drive l c stopped s).listener⟩ := by
  induction c, stopped, s using drive_induction l generalizing h with
  | closed c stopped s r hc =>
    rw [drive_closed hc, drive_closed hc]
    exact ⟨h, rfl⟩
  | looking c stopped s hc ih =>
    rw [drive_looking hc, drive_looking hc]
    exact ih _
  | accepted c stopped s e later pace hc ha ih =>
    rw [drive_accepted hc stopped ha, drive_accepted hc stopped (s := (h, s)) ha]
    exact ih _
  | refused c stopped s e later pace hc ha ih =>
    rw [drive_refused hc stopped ha, drive_refused hc stopped (s := (h, s)) ha]
    exact ih _
  | resting c stopped s hc ih =>
    rw [drive_resting hc, drive_resting hc]
    exact ih h
  | signing c stopped s hc ih =>
    rw [drive_signing hc, drive_signing hc]
    exact ih _

/-- A courier that has signed off counts its note if it was accepted. -/
theorem exists_stage_signed (c : Courier) (accepted : Bool) :
    ∃ r, (c.signed accepted).stage = .closed r ∧
      CutShort r (c.delivered + if accepted then 1 else 0) := by
  cases accepted with
  | false => exact ⟨_, rfl, rfl, rfl, rfl⟩
  | true => exact ⟨_, rfl, rfl, rfl, rfl⟩

/-- Signing off offers the note and ends the run. -/
theorem drive_recorded_signing {l : Listener σ} {c : Courier} (hc : c.stage = .signing)
    (stopped : Bool) (s : List Entry × σ) :
    ∃ note, (drive l.recorded c stopped s).listener.1 = s.1 ++ [.offered .cancelled note] ∧
      CutShort (drive l.recorded c stopped s).report
        (c.delivered + if note.accepted then 1 else 0) := by
  refine ⟨(l.offer .cancelled s.2).1, ?_⟩
  obtain ⟨r, hr, hcut⟩ := exists_stage_signed c (l.offer .cancelled s.2).1.accepted
  have hd := drive_signing (l := l.recorded) hc stopped s
  rw [show (l.recorded.offer .cancelled s).1 = (l.offer .cancelled s.2).1 from rfl,
    drive_closed hr] at hd
  rw [hd]
  exact ⟨rfl, hcut⟩

/-- One of the three ends. -/
def Ends (m : Machine) (up : Bool) (d : Driven (List Entry × σ)) : Prop :=
  CarriedThrough m d.listener.1 d.report ∨ SignedOff m up d.listener.1 d.report ∨
    Dropped m up d.listener.1 d.report d.stopped

/-- A look that finds the signal up between two units of work ends the run. -/
theorem ends_of_look_up {l : Listener σ} {c : Courier} {stopped : Bool} {s : List Entry × σ}
    {sent : List Event} (ht : c.Tracks m sent) (hc : c.stage = .looking)
    (ho : offers s.1 = sent.map (·, true)) (hs : stopped = isUp up s.1)
    (hup : (stopped || (l.poll s.2).1) = true) : Ends m up (drive l.recorded c stopped s) := by
  obtain ⟨k, rest, hunit, hstream, hrest⟩ := ht.between_inv (.inl hc)
  have hd := drive_looking (l := l.recorded) hc stopped s
  rw [show (l.recorded.poll s).1 = (l.poll s.2).1 from rfl, hup] at hd
  have hsign : (c.look true).stage = .signing := rfl
  obtain ⟨note, hh, hcut⟩ := drive_recorded_signing hsign true (l.recorded.poll s).2
  rw [← hd] at hh hcut
  rw [show (c.look true).delivered = sent.length from ht.delivered_eq] at hcut
  refine .inr (.inl ?_)
  rw [hh]
  refine .between hstream hrest hunit ho ?_ hcut
  rw [isUp_append, ← hs]
  simpa [isUp, raises] using hup

/-- A refusal ends the run, with the note if the signal is up by then. -/
theorem ends_of_refused {l : Listener σ} {c : Courier} {stopped : Bool} {s : List Entry × σ}
    {sent : List Event} {e : Event} {later : List Event} {pace : Bool} (ht : c.Tracks m sent)
    (hc : c.stage = .offering e later pace) (ho : offers s.1 = sent.map (·, true))
    (hs : stopped = isUp up s.1) (ha : (l.offer e s.2).1.accepted = false) :
    Ends m up (drive l.recorded c stopped s) := by
  obtain ⟨rest, hstream⟩ := ht.offering_inv hc
  let reply := (l.offer e s.2).1
  let asked := (l.poll (l.offer e s.2).2).1
  have hd := drive_refused (l := l.recorded) hc stopped (s := s) ha
  have hh : (l.recorded.poll (l.recorded.offer e s).2).2.1 =
      s.1 ++ [.offered e reply, .looked asked] := by
    simp [Listener.recorded, reply, asked]
  have hup : isUp up (s.1 ++ [.offered e reply, .looked asked]) =
      (stopped || reply.stops || asked) := by
    rw [isUp_append, ← hs]
    simp [isUp, raises, Bool.or_assoc]
  rw [show (l.recorded.offer e s).1 = reply from rfl,
    show (l.recorded.poll (l.recorded.offer e s).2).1 = asked from rfl, ← hup] at hd
  cases hu : isUp up (s.1 ++ [.offered e reply, .looked asked]) with
  | true =>
    rw [hu] at hd
    have hsign : (c.refused true).stage = .signing := rfl
    obtain ⟨note, hk, hcut⟩ := drive_recorded_signing hsign true
      (l.recorded.poll (l.recorded.offer e s).2).2
    rw [← hd, hh] at hk
    rw [← hd, show (c.refused true).delivered = sent.length from ht.delivered_eq] at hcut
    refine .inr (.inl ?_)
    rw [hk]
    exact .during hstream ho ha hu hcut
  | false =>
    have hclosed : (c.refused false).stage = .closed c.cancelledReport := rfl
    rw [hu, drive_closed hclosed] at hd
    refine .inr (.inr ?_)
    rw [hd, hh]
    exact .refused hstream ho ha hu ⟨rfl, rfl, ht.delivered_eq⟩

/-- From wherever a courier tracks the stream, the run comes to one of the three ends. -/
theorem ends_of_tracks {l : Listener σ} {c : Courier} {stopped : Bool} {s : List Entry × σ}
    {sent : List Event} (ht : c.Tracks m sent) (ho : offers s.1 = sent.map (·, true))
    (hs : stopped = isUp up s.1) : Ends m up (drive l.recorded c stopped s) := by
  induction c, stopped, s using drive_induction l.recorded generalizing sent with
  | closed c stopped s r hc =>
    obtain ⟨hreport, hsent⟩ := ht.closed_inv hc
    rw [drive_closed hc]
    exact .inl ⟨by rw [ho, hsent], hreport⟩
  | looking c stopped s hc ih =>
    cases hu : stopped || (l.poll s.2).1 with
    | true => exact ends_of_look_up ht hc ho hs hu
    | false =>
      have hdown : (stopped || (l.recorded.poll s).1) = false := hu
      rw [drive_looking hc]
      rw [hdown] at ih ⊢
      refine ih (ht.look hc) ?_ ?_
      · rw [Listener.recorded, offers_append, ho]
        exact List.append_nil _
      · rw [Listener.recorded, isUp_append, ← hs, ← hu]
        simp [isUp, raises]
  | accepted c stopped s e later pace hc ha ih =>
    rw [drive_accepted hc stopped ha]
    refine ih (ht.accepted hc) ?_ ?_
    · have ha' : (l.offer e s.2).1.accepted = true := ha
      rw [Listener.recorded, offers_append, ho, List.map_append]
      simp [offers, ha']
    · rw [Listener.recorded, isUp_append, ← hs]
      simp [isUp, raises]
  | refused c stopped s e later pace hc ha ih => exact ends_of_refused ht hc ho hs ha
  | resting c stopped s hc ih =>
    rw [drive_resting hc]
    exact ih (ht.wake hc) ho hs
  | signing c stopped s hc ih => exact absurd hc ht.stage_ne_signing

/-- A listener that keeps everything gets the whole stream. -/
theorem drive_keeper {c : Courier} {sent : List Event} (ht : c.Tracks m sent) :
    ∃ r, m.report? = some r ∧
      drive .keeper c false sent.reverse = ⟨r, false, m.stream.reverse⟩ := by
  generalize hs : sent.reverse = s
  generalize hstopped : false = stopped
  induction c, stopped, s using drive_induction Listener.keeper generalizing sent with
  | closed c stopped s r hc =>
    obtain ⟨hreport, hsent⟩ := ht.closed_inv hc
    refine ⟨r, hreport, ?_⟩
    rw [drive_closed hc, ← hs, hsent]
  | looking c stopped s hc ih =>
    subst hstopped
    rw [drive_looking hc]
    exact ih (ht.look hc) hs rfl
  | accepted c stopped s e later pace hc ha ih =>
    subst hstopped
    rw [drive_accepted hc _ ha]
    refine ih (ht.accepted hc) ?_ rfl
    rw [List.reverse_append, hs]
    rfl
  | refused c stopped s e later pace hc ha ih => cases ha
  | resting c stopped s hc ih =>
    subst hstopped
    rw [drive_resting hc]
    exact ih (ht.wake hc) hs rfl
  | signing c stopped s hc ih => exact absurd hc ht.stage_ne_signing

/-- A run that is carried through gives the stream of its machine and the machine's summary. -/
theorem Run.collect_eq (maxDepth : Nat) (program : Program) (maze : Maze) (player : Player) :
    let m := Machine.start program maze player maxDepth
    ∃ r, m.report? = some r ∧ Run.collect maxDepth program maze player = (m.stream, r) := by
  intro m
  obtain ⟨r, hr, hd⟩ := drive_keeper (Courier.tracks_ofMachine (m := m) rfl)
  refine ⟨r, hr, ?_⟩
  rw [Run.collect, Run.under]
  simp only [List.reverse_nil] at hd
  rw [hd]
  simp

/-- Under any listener, with the stop signal raised at any times, a run comes to exactly one of
three ends: it is carried through, or cancelled and signed off, or dropped after a refusal. The
history that tells them apart is one in which the listener behaves as it does without it. -/
theorem under_ends_in_one_way (l : Listener σ) (maxDepth : Nat) (program : Program) (maze : Maze)
    (player : Player) (up : Bool) (s : σ) :
    let m := Machine.start program maze player maxDepth
    let d := Run.under l maxDepth program maze player up s
    ∃ h : List Entry,
      Run.under l.recorded maxDepth program maze player up ([], s) =
        ⟨d.report, d.stopped, h, d.listener⟩ ∧
      ((CarriedThrough m h d.report ∧ ¬ SignedOff m up h d.report ∧
          ¬ Dropped m up h d.report d.stopped) ∨
        (¬ CarriedThrough m h d.report ∧ SignedOff m up h d.report ∧
          ¬ Dropped m up h d.report d.stopped) ∨
        (¬ CarriedThrough m h d.report ∧ ¬ SignedOff m up h d.report ∧
          Dropped m up h d.report d.stopped)) := by
  intro m d
  obtain ⟨h, hh⟩ := drive_recorded l (.ofMachine m) up s []
  refine ⟨h, hh, ?_⟩
  have hup : up = isUp up ([] : List Entry) := by simp [isUp]
  have hends := ends_of_tracks (l := l) (s := ([], s)) (Courier.tracks_ofMachine (m := m) rfl)
    rfl hup
  rw [hh] at hends
  rcases hends with hc | hs | hd
  · refine .inl ⟨hc, ?_, ?_⟩
    · intro hs
      obtain ⟨n, hn⟩ := hs.cutShort
      exact hc.not_cutShort hn
    · intro hd
      obtain ⟨n, hn⟩ := hd.cutShort
      exact hc.not_cutShort hn
  · refine .inr (.inl ⟨?_, hs, hs.not_dropped⟩)
    intro hc
    obtain ⟨n, hn⟩ := hs.cutShort
    exact hc.not_cutShort hn
  · refine .inr (.inr ⟨?_, fun hs => hs.not_dropped hd, hd⟩)
    intro hc
    obtain ⟨n, hn⟩ := hd.cutShort
    exact hc.not_cutShort hn

end

end Labyrinth
