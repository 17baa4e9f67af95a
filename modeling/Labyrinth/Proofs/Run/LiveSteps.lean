import Labyrinth.Proofs.Run.Interleaving

/-!
# Operations of a live run as steps

Every move of a live run, and everything its reader and its owner can do short of leaving
it, is made of the steps of a scene, with the worker's hand empty before and after. What
holds in every order of steps therefore holds of a live run under its own operations. And
a reader who reads to the end sees the worker come to its end, and so does who stops it.
-/

namespace Labyrinth

namespace Scene

variable {buffer : Option Nat}

/-- Some steps lead from a scene to another. -/
def Leads (buffer : Option Nat) (x y : Scene) : Prop := ∃ acts, x.perform buffer acts = y

theorem leads_refl (x : Scene) : Leads buffer x x := ⟨[], rfl⟩

theorem Leads.trans {x y z : Scene} (hxy : Leads buffer x y) (hyz : Leads buffer y z) :
    Leads buffer x z := by
  obtain ⟨acts, rfl⟩ := hxy
  obtain ⟨acts', rfl⟩ := hyz
  exact ⟨acts ++ acts', List.foldl_append⟩

/-- What holds in every order of steps holds wherever they lead. -/
theorem Leads.sound {m : Machine} {x y : Scene} (h : Leads buffer x y) (hx : Sound m buffer x)
    (hm : m.isOver = false) : Sound m buffer y := by
  obtain ⟨acts, rfl⟩ := h
  exact hx.perform hm acts

/-- Some steps of the worker alone lead from a scene to another. -/
def Works (buffer : Option Nat) (x y : Scene) : Prop :=
  ∃ acts : List Act, (∀ a ∈ acts, a = .work) ∧ x.perform buffer acts = y

theorem works_refl (x : Scene) : Works buffer x x := ⟨[], nofun, rfl⟩

theorem Works.trans {x y z : Scene} (hxy : Works buffer x y) (hyz : Works buffer y z) :
    Works buffer x z := by
  obtain ⟨acts, hacts, rfl⟩ := hxy
  obtain ⟨acts', hacts', rfl⟩ := hyz
  refine ⟨acts ++ acts', fun a ha => ?_, List.foldl_append⟩
  exact (List.mem_append.mp ha).elim (hacts a) (hacts' a)

theorem Works.leads {x y : Scene} (h : Works buffer x y) : Leads buffer x y :=
  ⟨h.choose, h.choose_spec.2⟩

/-- A move of a live run is made of steps of its worker. -/
theorem works_move? {c : Config} {r s : LiveRun} (h : r.move? c = some s)
    (received : List Event) :
    Works c.eventBuffer (ofRun r received) (ofRun s received) := by
  unfold LiveRun.move? at h
  split at h
  · cases h
  · rename_i hstage
    cases h
    exact ⟨[.work], by simp, by simp [perform, act, work, ofRun, hstage]⟩
  · rename_i e later pace hstage
    split at h
    · rename_i hroom
      split at h
      · rename_i t ht
        cases h
        exact ⟨[.work, .work], by simp,
          by simp [perform, act, work, send, ofRun, hstage, hroom, ht]⟩
      · rename_i t ht
        cases h
        have hsame : t = r := by
          rw [LiveRun.trySend] at ht
          split at ht <;> cases ht
          rfl
        subst hsame
        exact ⟨[.work, .work, .work], by simp, by
          simp [perform, act, work, send, ofRun, hstage, hroom, ht]⟩
    · rename_i hroom
      split at h
      · rename_i hup
        cases h
        refine ⟨[.work, .work, .work], by simp, ?_⟩
        simp [perform, act, work, send, ofRun, hstage, hroom, hup]
      · cases h
  · rename_i hstage
    split at h
    · cases h
      exact ⟨[.work], by simp, by simp [perform, act, work, ofRun, hstage]⟩
    · cases h
  · rename_i hstage
    cases h
    exact ⟨[.work], by simp, by simp [perform, act, work, ofRun, hstage]⟩

/-- So is a move for which time passes. -/
theorem works_next? {c : Config} {r s : LiveRun} (h : r.next? c = some s)
    (received : List Event) :
    Works c.eventBuffer (ofRun r received) (ofRun s received) := by
  rcases Option.or_eq_some_iff.mp h with hmove | ⟨-, helapse⟩
  · exact works_move? hmove received
  · unfold LiveRun.elapse? at helapse
    split at helapse
    · rename_i hstage
      cases helapse
      exact ⟨[.work], by simp, by simp [perform, act, work, ofRun, hstage]⟩
    · cases helapse

theorem works_settle (c : Config) (r : LiveRun) (received : List Event) :
    Works c.eventBuffer (ofRun r received) (ofRun (r.settle c) received) := by
  induction r using LiveRun.settle.induct c with
  | case1 r hr =>
    rw [LiveRun.settle]
    split
    · exact works_refl _
    · simp_all
  | case2 r s hs ih =>
    rw [LiveRun.settle]
    split
    · exact works_refl _
    · rename_i t ht
      rw [hs] at ht
      cases ht
      exact (works_move? hs received).trans ih

theorem works_waitUntil (c : Config) (holds : LiveRun → Bool) (r : LiveRun)
    (received : List Event) :
    Works c.eventBuffer (ofRun r received) (ofRun (r.waitUntil c holds) received) := by
  induction r using LiveRun.waitUntil.induct c holds with
  | case1 r hr =>
    rw [LiveRun.waitUntil, if_pos hr]
    exact works_refl _
  | case2 r hr hnext =>
    rw [LiveRun.waitUntil, if_neg hr]
    split
    · exact works_refl _
    · simp_all
  | case3 r hr s hs ih =>
    rw [LiveRun.waitUntil, if_neg hr]
    split
    · exact works_refl _
    · rename_i t ht
      rw [hs] at ht
      cases ht
      exact (works_next? hs received).trans ih

/-- Taking one event is a receive among the steps of the worker. -/
theorem leads_receive (c : Config) (r : LiveRun) (received : List Event) :
    Leads c.eventBuffer (ofRun r received)
      (ofRun (r.receive c).2 (received ++ (r.receive c).1.toList)) := by
  have hwait := (works_waitUntil c (fun r => !r.queue.isEmpty) r received).leads
  refine hwait.trans ?_
  simp only [LiveRun.receive]
  split
  · rw [Option.toList_none, List.append_nil]
    exact leads_refl _
  · rename_i e queue hqueue
    refine Leads.trans ?_ (works_settle c _ _).leads
    exact ⟨[.receive], by simp [perform, act, receive, ofRun, hqueue]⟩

/-- Raising the signal is a stop before steps of the worker. -/
theorem leads_stop (c : Config) (r : LiveRun) (received : List Event) :
    Leads c.eventBuffer (ofRun r received) (ofRun (r.stop c) received) := by
  refine Leads.trans ?_ (works_settle c _ received).leads
  exact ⟨[.stop], rfl⟩

/-- Taking all that is queued is some receives. -/
theorem leads_emptied (buffer : Option Nat) (r : LiveRun) (received : List Event) :
    Leads buffer (ofRun r received) (ofRun r.emptied (received ++ r.queue)) := by
  obtain ⟨courier, queue, stopped, abandoned⟩ := r
  induction queue generalizing received with
  | nil =>
    rw [List.append_nil]
    exact leads_refl _
  | cons e queue ih =>
    have hfirst : Leads buffer (ofRun ⟨courier, e :: queue, stopped, abandoned⟩ received)
        (ofRun ⟨courier, queue, stopped, abandoned⟩ (received ++ [e])) := ⟨[.receive], rfl⟩
    have hrest := ih (received ++ [e])
    rw [List.append_assoc] at hrest
    exact hfirst.trans hrest

/-- Reading to the end of the stream is receives among steps of the worker. -/
theorem leads_drain (c : Config) (r : LiveRun) (read received : List Event) :
    Leads c.eventBuffer (ofRun r (received ++ read.reverse))
      (ofRun (r.drain c read).2 (received ++ (r.drain c read).1)) := by
  induction r, read using LiveRun.drain.induct c with
  | case1 r read hnone =>
    have hempty := leads_emptied c.eventBuffer r (received ++ read.reverse)
    rw [LiveRun.drain]
    split
    · simpa [List.append_assoc] using hempty
    · simp_all
  | case2 r read read' s hs ih =>
    have hread : read' = r.queue.reverse ++ read := by simp [read']
    have hempty := leads_emptied c.eventBuffer r (received ++ read.reverse)
    have hparts : received ++ read.reverse ++ r.queue = received ++ read'.reverse := by
      simp [hread, List.append_assoc]
    rw [hparts] at hempty
    have hnext := (hempty.trans (works_next? hs _).leads).trans ih
    rw [hread] at hnext
    rw [LiveRun.drain]
    split
    · simp_all
    · rename_i t ht
      rw [hs] at ht
      cases ht
      exact hnext

end Scene

namespace LiveRun

/-- A worker that has no move although the signal is up is at its end. -/
theorem isOver_of_move?_eq_none {c : Config} {r : LiveRun} (hup : r.stopped = true)
    (h : r.move? c = none) : r.isOver = true := by
  cases hstage : r.courier.stage with
  | closed report => simp [isOver, LiveRun.report?, Courier.report?, hstage]
  | looking | resting | signing => simp [move?, hstage, hup] at h
  | offering e later pace =>
    simp only [move?, hstage, hup, if_true] at h
    split at h
    · split at h <;> cases h
    · cases h

theorem stopped_trySend (buffer : Option Nat) (r : LiveRun) (e : Event) :
    (r.trySend buffer e).2.stopped = r.stopped := by
  rw [trySend]
  split <;> rfl

theorem abandoned_trySend (buffer : Option Nat) (r : LiveRun) (e : Event) :
    (r.trySend buffer e).2.abandoned = r.abandoned := by
  rw [trySend]
  split <;> rfl

/-- The signal, once up, stays up in every move. -/
theorem stopped_move? {c : Config} {r s : LiveRun} (hup : r.stopped = true)
    (h : r.move? c = some s) : s.stopped = true := by
  have htry (e : Event) : (r.trySend c.eventBuffer e).2.stopped = true :=
    (stopped_trySend c.eventBuffer r e).trans hup
  unfold move? at h
  split at h
  · cases h
  · cases h
    exact hup
  · split at h
    · split at h
      next t ht =>
        cases h
        have hr := htry ‹_›
        rw [ht] at hr
        exact hr
      · cases h
        rfl
    · cases h
      exact hup
  · split at h
    · cases h
      exact hup
    · cases h
  · cases h
    exact htry _

/-- Stopping a run brings its worker to its end. -/
theorem isOver_stop (c : Config) (r : LiveRun) : (r.stop c).isOver = true := by
  suffices hsettle : ∀ r : LiveRun, r.stopped = true → (r.settle c).isOver = true from hsettle _ rfl
  clear r
  intro r hup
  induction r using settle.induct c with
  | case1 r hr =>
    rw [settle]
    split
    · exact isOver_of_move?_eq_none hup hr
    · simp_all
  | case2 r s hs ih =>
    rw [settle]
    split
    · simp_all
    next t ht =>
      obtain rfl : s = t := Option.some.inj (hs.symm.trans ht)
      exact ih (stopped_move? hup hs)

/-- A worker that cannot move, not even in time, with nothing in a queue that has room, is at its
end. -/
theorem isOver_of_next?_eq_none {c : Config} {r : LiveRun} (hbuffer : c.eventBuffer ≠ some 0)
    (hqueue : r.queue = []) (h : r.next? c = none) : r.isOver = true := by
  obtain ⟨hmove, helapse⟩ := Option.or_eq_none_iff.mp h
  cases hstage : r.courier.stage with
  | closed report => simp [isOver, LiveRun.report?, Courier.report?, hstage]
  | looking => simp [move?, hstage] at hmove
  | offering e later pace =>
    have hroom : r.hasRoom c.eventBuffer e = true := by
      rw [hasRoom, hqueue, Bool.or_eq_true]
      refine .inr ?_
      cases hb : c.eventBuffer with
      | none => rfl
      | some n =>
        have hn : n ≠ 0 := by
          rintro rfl
          exact hbuffer hb
        simpa using Nat.pos_of_ne_zero hn
    simp only [move?, hstage, hroom, if_true] at hmove
    split at hmove <;> cases hmove
  | resting => simp [elapse?, hstage] at helapse
  | signing => simp [move?, hstage] at hmove

/-- Reading to the end of the stream brings the worker to its end. -/
theorem isOver_drain {c : Config} (hbuffer : c.eventBuffer ≠ some 0) (r : LiveRun)
    (read : List Event) : (r.drain c read).2.isOver = true := by
  induction r, read using drain.induct c with
  | case1 r read hnone =>
    rw [drain]
    split
    · exact isOver_of_next?_eq_none hbuffer rfl hnone
    · simp_all
  | case2 r read read' s hs ih =>
    have hread : read' = r.queue.reverse ++ read := by simp [read']
    rw [hread] at ih
    rw [drain]
    split
    · simp_all
    · rename_i t ht
      rw [hs] at ht
      cases ht
      exact ih

end LiveRun

end Labyrinth
