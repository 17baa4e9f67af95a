import Labyrinth.Run.Machine

/-!
# The course of a run

A machine is let work unit after unit. A run that is over tells nothing more, so a run has
one last machine and one whole stream of events, whatever number of further units is
asked of it. The end of a stream is always the final player, and no other event of it is
terminal.
-/

namespace Labyrinth

/-- What can be seen of a run: events, and requests for a pause. -/
inductive Mark where
  /-- An event is told. -/
  | event (e : Event)
  /-- A pause is asked for. -/
  | pause
  deriving DecidableEq, Repr

namespace Output

/-- A unit of work that tells nothing. -/
def silent : Output := ⟨[], false⟩

/-- The events of a unit of work, and then the pause it asks for. -/
def marks (o : Output) : List Mark := o.events.map .event ++ if o.pace then [.pause] else []

end Output

namespace Machine

/-- The machine after some units of work. -/
def after (m : Machine) : Nat → Machine
  | 0 => m
  | n + 1 => m.step.2.after n

/-- What some units of work tell, unit by unit. -/
def outputs (m : Machine) : Nat → List Output
  | 0 => []
  | n + 1 => m.step.1 :: m.step.2.outputs n

/-- The events of some units of work. -/
def events (m : Machine) (n : Nat) : List Event := (m.outputs n).flatMap Output.events

/-- The events and pauses of some units of work. -/
def marks (m : Machine) (n : Nat) : List Mark := (m.outputs n).flatMap Output.marks

/-- The machine at the end of its run. -/
def last (m : Machine) : Machine := m.after m.work

/-- All events up to the end of the run. -/
def stream (m : Machine) : List Event := m.events m.work

/-- All that can be seen up to the end of the run. -/
def trace (m : Machine) : List Mark := m.marks m.work

/-- Units of work add up. -/
theorem after_add (m : Machine) (k n : Nat) : m.after (k + n) = (m.after k).after n := by
  induction k generalizing m with
  | zero => rw [Nat.zero_add, after]
  | succ k ih =>
    rw [Nat.succ_add, after, after]
    exact ih m.step.2

/-- What is told by more units comes after what is told by fewer. -/
theorem outputs_add (m : Machine) (k n : Nat) :
    m.outputs (k + n) = m.outputs k ++ (m.after k).outputs n := by
  induction k generalizing m with
  | zero => rw [Nat.zero_add, outputs, after, List.nil_append]
  | succ k ih =>
    rw [Nat.succ_add, outputs, outputs, after, List.cons_append, ih]

theorem after_succ (m : Machine) (n : Nat) : m.after (n + 1) = (m.after n).step.2 := by
  rw [after_add]
  rfl

theorem events_add (m : Machine) (k n : Nat) :
    m.events (k + n) = m.events k ++ (m.after k).events n := by
  simp only [events, outputs_add, List.flatMap_append]

theorem marks_add (m : Machine) (k n : Nat) :
    m.marks (k + n) = m.marks k ++ (m.after k).marks n := by
  simp only [marks, outputs_add, List.flatMap_append]

theorem events_succ (m : Machine) (n : Nat) :
    m.events (n + 1) = m.events n ++ (m.after n).step.1.events := by
  rw [events_add]
  simp [events, outputs]

theorem marks_succ (m : Machine) (n : Nat) :
    m.marks (n + 1) = m.marks n ++ (m.after n).step.1.marks := by
  rw [marks_add]
  simp [marks, outputs]

/-- What holds at first, and is kept by every unit of work and what it tells, holds at any time. -/
theorem run_induction {motive : List Event → Machine → Prop} {m : Machine} (begin : motive [] m)
    (step : ∀ told m, motive told m → motive (told ++ m.step.1.events) m.step.2) (n : Nat) :
    motive (m.events n) (m.after n) := by
  induction n with
  | zero => exact begin
  | succ n ih =>
    rw [events_succ, after_succ]
    exact step _ _ ih

theorem after_of_isOver {m : Machine} (h : m.isOver = true) (n : Nat) : m.after n = m := by
  induction n with
  | zero => rfl
  | succ n ih => rw [after, step_of_isOver h, ih]

theorem outputs_of_isOver {m : Machine} (h : m.isOver = true) (n : Nat) :
    m.outputs n = List.replicate n Output.silent := by
  induction n with
  | zero => rfl
  | succ n ih =>
    rw [outputs, step_of_isOver h, ih, List.replicate_succ]
    rfl

/-- A run that is over stays over. -/
theorem isOver_after_mono {m : Machine} {k n : Nat} (hk : (m.after k).isOver = true)
    (hkn : k ≤ n) : (m.after n).isOver = true := by
  obtain ⟨i, rfl⟩ := Nat.exists_eq_add_of_le hkn
  rw [after_add, after_of_isOver hk]
  exact hk

/-- A run that goes on was going on before. -/
theorem going_after_of_le {m : Machine} {k n : Nat} (hn : (m.after n).isOver = false)
    (hkn : k ≤ n) : (m.after k).isOver = false := by
  cases hk : (m.after k).isOver with
  | false => rfl
  | true =>
    rw [isOver_after_mono hk hkn] at hn
    cases hn

/-- Nothing is told after the end, in whatever way the silent outputs are read. -/
theorem flatMap_outputs_of_le {α : Type} {m : Machine} {k n : Nat} (f : Output → List α)
    (hf : f .silent = []) (hk : (m.after k).isOver = true) (hkn : k ≤ n) :
    (m.outputs n).flatMap f = (m.outputs k).flatMap f := by
  obtain ⟨i, rfl⟩ := Nat.exists_eq_add_of_le hkn
  have hs : (List.replicate i Output.silent).flatMap f = [] := by
    rw [List.flatMap_eq_nil_iff]
    intro o ho
    rw [List.eq_of_mem_replicate ho, hf]
  rw [outputs_add, outputs_of_isOver hk, List.flatMap_append, hs, List.append_nil]

/-- Any two moments at which the run is over have seen the same outputs. -/
theorem flatMap_outputs_eq {α : Type} {m : Machine} {k n : Nat} (f : Output → List α)
    (hf : f .silent = []) (hk : (m.after k).isOver = true) (hn : (m.after n).isOver = true) :
    (m.outputs n).flatMap f = (m.outputs k).flatMap f := by
  rcases Nat.le_total k n with h | h
  · exact flatMap_outputs_of_le f hf hk h
  · exact (flatMap_outputs_of_le f hf hn h).symm

/-- The work left is a bound on the units up to the end. -/
theorem isOver_after_of_work_le {m : Machine} {n : Nat} (h : m.work ≤ n) :
    (m.after n).isOver = true := by
  induction n generalizing m with
  | zero =>
    cases ho : m.isOver with
    | true => exact ho
    | false =>
      have := work_step_lt ho
      omega
  | succ n ih =>
    cases ho : m.isOver with
    | true =>
      rw [after_of_isOver ho]
      exact ho
    | false =>
      have := work_step_lt ho
      exact ih (by omega)

theorem isOver_last (m : Machine) : m.last.isOver = true := isOver_after_of_work_le (Nat.le_refl _)

/-- Any two moments at which the run is over show the same machine. -/
theorem last_of_isOver_after {m : Machine} {n : Nat} (h : (m.after n).isOver = true) :
    m.after n = m.last := by
  rcases Nat.le_total n m.work with hn | hn
  · obtain ⟨i, hi⟩ := Nat.exists_eq_add_of_le hn
    rw [last, hi, after_add, after_of_isOver h]
  · obtain ⟨i, rfl⟩ := Nat.exists_eq_add_of_le hn
    rw [after_add]
    exact after_of_isOver (isOver_last m) i

theorem stream_of_isOver_after {m : Machine} {n : Nat} (h : (m.after n).isOver = true) :
    m.events n = m.stream :=
  flatMap_outputs_eq _ rfl (isOver_last m) h

theorem trace_of_isOver_after {m : Machine} {n : Nat} (h : (m.after n).isOver = true) :
    m.marks n = m.trace :=
  flatMap_outputs_eq _ rfl (isOver_last m) h

/-- What is left of a run comes to the end of the run. -/
theorem last_after (m : Machine) (k : Nat) : (m.after k).last = m.last := by
  have hover : (m.after (k + (m.after k).work)).isOver = true := by
    rw [after_add]
    exact isOver_last _
  rw [← last_of_isOver_after hover, after_add]
  rfl

/-- What is told up to a moment, and what is told from then on. -/
theorem stream_after (m : Machine) (k : Nat) : m.stream = m.events k ++ (m.after k).stream := by
  have hover : (m.after (k + (m.after k).work)).isOver = true := by
    rw [after_add]
    exact isOver_last _
  rw [← stream_of_isOver_after hover, events_add]
  rfl

/-- What a unit of work may tell: nothing terminal while the run goes on, and at its end the
final player after nothing terminal. -/
def Settles (r : Output × Machine) : Prop :=
  if r.2.isOver then
    ∃ told, r.1.events = told ++ [.finished r.2.player] ∧ ∀ e ∈ told, e.isTerminal = false
  else ∀ e ∈ r.1.events, e.isTerminal = false

/-- The note of a run that went too deep is not the note of a cancelled run. -/
theorem isTerminal_tooDeep (limit : Nat) :
    (Event.log ("Execution aborted: " ++ tooDeepText limit)).isTerminal = false := by
  simp only [Event.isTerminal, cancelledText, beq_eq_false_iff_ne, ne_eq]
  intro h
  have hc := congrArg (fun s : String => s.toList[10]?) h
  simp at hc

theorem settles_finish (m : Machine) (pace : Bool) : Settles (m.finish pace) := by
  refine ⟨_, rfl, ?_⟩
  intro e he
  split at he
  · rw [List.mem_singleton.mp he]
    rfl
  · cases he

theorem settles_giveUp (m : Machine) : Settles m.giveUp := by
  refine ⟨[_], rfl, ?_⟩
  intro e he
  rw [List.mem_singleton.mp he]
  exact isTerminal_tooDeep m.maxDepth

/-- A unit of work that tells nothing settles as long as the run goes on. -/
theorem settles_of_going {m : Machine} (h : m.isOver = false) (pace : Bool) :
    Settles (⟨[], pace⟩, m) := by
  rw [Settles, if_neg (by simp [h])]
  intro e he
  cases he

theorem settles_enter (m : Machine) (body : Program) (remaining : Nat) (top : Frame)
    (below : List Frame) : Settles (m.enter body remaining top below) := by
  unfold enter
  split
  · exact settles_giveUp m
  · exact settles_of_going rfl _

theorem settles_move (m : Machine) (top : Frame) (below : List Frame) (d : Direction) :
    Settles ((m.goOn top below).move d) := by
  intro e he
  rw [List.mem_singleton.mp he]
  cases (m.goOn top below).walk.landing (m.goOn top below).maze d <;> rfl

theorem settles_dispatch (m : Machine) (i : Instruction) (top : Frame) (below : List Frame) :
    Settles (m.dispatch i top below) := by
  unfold dispatch
  split
  · exact settles_move m top below _
  · split
    · exact settles_of_going rfl _
    · exact settles_enter _ _ _ _ _
  · split
    · exact settles_enter _ _ _ _ _
    · exact settles_of_going rfl _
  all_goals exact settles_of_going rfl _

/-- Every unit of work of a run that is not over settles. -/
theorem settles_step {m : Machine} (h : m.isOver = false) : Settles m.step := by
  unfold step
  split
  · intro e he
    rw [List.mem_singleton.mp he]
    rfl
  · unfold advance
    split
    · exact settles_dispatch _ _ _ _
    · split
      · exact settles_of_going rfl _
      · split
        · exact settles_of_going rfl _
        · exact settles_finish _ _
  · rename_i e hp
    simp [isOver, ending?, hp] at h

/-- As long as a run goes on it has told nothing terminal. -/
theorem not_isTerminal_of_mem_events {m : Machine} {n : Nat} (h : (m.after n).isOver = false)
    {e : Event} (he : e ∈ m.events n) : e.isTerminal = false := by
  induction n with
  | zero => cases he
  | succ n ih =>
    cases hn : (m.after n).isOver with
    | true =>
      rw [isOver_after_mono hn (Nat.le_succ n)] at h
      cases h
    | false =>
      rw [events_succ, List.mem_append] at he
      rcases he with he | he
      · exact ih hn he
      · have hs := settles_step hn
        rw [after_succ] at h
        rw [Settles, if_neg (by simp [h])] at hs
        exact hs e he

/-- A unit of work that ends the run tells of the final player last. -/
theorem events_eq_of_ends {m : Machine} {n : Nat} (hn : (m.after n).isOver = false)
    (h : (m.after (n + 1)).isOver = true) :
    ∃ told, m.events (n + 1) = told ++ [.finished m.last.player] ∧
      ∀ e ∈ told, e.isTerminal = false := by
  have hs := settles_step hn
  rw [after_succ] at h
  rw [Settles, if_pos h] at hs
  obtain ⟨told, ht, hterm⟩ := hs
  refine ⟨m.events n ++ told, ?_, ?_⟩
  · rw [events_succ, ht, List.append_assoc, ← after_succ,
      last_of_isOver_after (by rwa [after_succ])]
  · intro e he
    rcases List.mem_append.mp he with he | he
    · exact not_isTerminal_of_mem_events hn he
    · exact hterm e he

/-- A run that has not ended ends with one of its further units of work. -/
theorem exists_end {m : Machine} (h : m.isOver = false) :
    ∃ n, (m.after n).isOver = false ∧ (m.after (n + 1)).isOver = true := by
  have hend : ∀ n, (m.after n).isOver = true →
      ∃ k, (m.after k).isOver = false ∧ (m.after (k + 1)).isOver = true := by
    intro n
    induction n with
    | zero =>
      intro h0
      rw [after, h] at h0
      cases h0
    | succ n ih =>
      intro hn
      cases ho : (m.after n).isOver with
      | true => exact ih ho
      | false => exact ⟨n, ho, hn⟩
  exact hend m.work (isOver_last m)

/-- There is a first moment at which a run is over. -/
theorem exists_isOver_after_iff {m : Machine} (h : m.isOver = false) :
    ∃ n, ∀ k, (m.after k).isOver = true ↔ n ≤ k := by
  obtain ⟨n, hn, hend⟩ := exists_end h
  refine ⟨n + 1, fun k => ⟨fun hk => ?_, isOver_after_mono hend⟩⟩
  rw [Nat.succ_le_iff]
  rcases Nat.lt_or_ge n k with hlt | hge
  · exact hlt
  · rw [isOver_after_mono hk hge] at hn
    cases hn

/-- The stream of a run ends with the final player, and nothing before is terminal. -/
theorem stream_eq {m : Machine} (h : m.isOver = false) :
    ∃ told, m.stream = told ++ [.finished m.last.player] ∧
      ∀ e ∈ told, e.isTerminal = false := by
  obtain ⟨n, hn, hend⟩ := exists_end h
  rw [← stream_of_isOver_after hend]
  exact events_eq_of_ends hn hend

/-- Every event of the stream but the last leaves it open. -/
theorem not_isTerminal_of_stream {m : Machine} (hm : m.isOver = false) {sent rest : List Event}
    (hstream : m.stream = sent ++ rest) (hrest : rest ≠ []) :
    ∀ e ∈ sent, e.isTerminal = false := by
  obtain ⟨told, htold, hopen⟩ := stream_eq hm
  have hparts : told = sent ++ rest.dropLast := by
    rw [← List.dropLast_append_of_ne_nil hrest, ← hstream, htold, List.dropLast_concat]
  intro e he
  refine hopen e ?_
  rw [hparts]
  exact List.mem_append_left _ he

end Machine

end Labyrinth
