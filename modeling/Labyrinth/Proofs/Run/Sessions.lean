import Labyrinth.Proofs.Run.Continuation
import Labyrinth.Proofs.Run.Delivery
import Labyrinth.Proofs.Run.Recording

/-!
# A strawberry is had once in a session

Programs are run on a maze one after another, each by any player and under any listener, and after
each run the strawberries that were heard of are taken from the maze. A run picks up different
rewards of its maze (`Machine.TakesRewards` is what its units of work keep), and a listener hears of
some of them, from the first on, however the run ends. So no strawberry is heard of twice in a whole
session, and the maze that is left is the first maze without those heard of so far.
-/

namespace Labyrinth

namespace Entry

/-- The events that were accepted in a history. -/
def accepted (h : List Entry) : List Event :=
  (offers h).filterMap fun offer => if offer.2 then some offer.1 else none

theorem accepted_append (h k : List Entry) : accepted (h ++ k) = accepted h ++ accepted k := by
  rw [accepted, offers_append, List.filterMap_append]
  rfl

/-- Where every offer was accepted, what was offered is what was accepted. -/
theorem accepted_of_offers {h : List Entry} {sent : List Event}
    (ho : offers h = sent.map (·, true)) : accepted h = sent := by
  rw [accepted, ho, List.filterMap_map]
  exact List.filterMap_some

theorem accepted_looked (asked : Bool) : accepted [.looked asked] = [] := rfl

theorem accepted_offered (e : Event) (reply : Reply) :
    accepted [.offered e reply] = if reply.accepted then [e] else [] := by
  cases h : reply.accepted <;> simp [accepted, offers, h]

/-- A refusal at the end, and a look after it, are not heard of. -/
theorem accepted_append_refused {h : List Entry} {sent : List Event}
    (ho : offers h = sent.map (·, true)) (e : Event) {reply : Reply}
    (hr : reply.accepted = false) (asked : Bool) :
    accepted (h ++ [.offered e reply, .looked asked]) = sent := by
  have hlast : accepted [.offered e reply, .looked asked] = [] := by
    rw [← List.singleton_append, accepted_append, accepted_offered, hr, accepted_looked]
    rfl
  rw [accepted_append, accepted_of_offers ho, hlast, List.append_nil]

/-- The note at the end of a cancelled run is heard or not. -/
theorem accepted_append_note (h : List Entry) (note : Reply) :
    accepted (h ++ [.offered .cancelled note]) = accepted h ∨
      accepted (h ++ [.offered .cancelled note]) = accepted h ++ [.cancelled] := by
  rw [accepted_append, accepted_offered]
  split
  · exact .inr rfl
  · exact .inl (List.append_nil _)

end Entry

open Entry

/-- However a run ends, what is heard of it is its stream up to some event, perhaps with the note of
a cancelled run. -/
theorem Ends.exists_accepted {σ : Type} {m : Machine} {up : Bool} {d : Driven (List Entry × σ)}
    (h : Ends m up d) : ∃ sent, sent <+: m.stream ∧
      (accepted d.listener.1 = sent ∨ accepted d.listener.1 = sent ++ [.cancelled]) := by
  unfold Ends at h
  generalize d.listener.1 = history, d.report = report, d.stopped = raised at h ⊢
  rcases h with hcarried | hsigned | hdropped
  · exact ⟨m.stream, List.prefix_rfl, .inl (accepted_of_offers hcarried.offers_eq)⟩
  · cases hsigned with
    | @between before asked note sent rest k _ hstream _ _ hoffers =>
      have hbefore : accepted (before ++ [.looked asked]) = sent := by
        rw [accepted_append, accepted_looked, accepted_of_offers hoffers, List.append_nil]
      exact ⟨sent, ⟨rest, hstream.symm⟩, hbefore ▸ accepted_append_note _ note⟩
    | @during before e reply note asked sent rest _ hstream hoffers hrefused =>
      have hbefore := accepted_append_refused hoffers e hrefused asked
      exact ⟨sent, ⟨e :: rest, hstream.symm⟩, hbefore ▸ accepted_append_note _ note⟩
  · cases hdropped with
    | refused hstream hoffers hrefused =>
      exact ⟨_, ⟨_, hstream.symm⟩, .inl (accepted_append_refused hoffers _ hrefused _)⟩

namespace Machine

/-- What was picked up so far are rewards of the maze. -/
def TakesRewards (m : Machine) : Prop := ∀ p ∈ m.walk.taken, m.maze.isReward p = true

/-- A unit of work picks up rewards of the maze only. -/
theorem TakesRewards.step {m : Machine} (h : m.TakesRewards) : m.step.2.TakesRewards := by
  have hdone := m.does_step
  generalize m.step = done at hdone ⊢
  cases hdone with
  | move => exact (Walk.lands_landing _ _ _).rewards_after h
  | begin | pass | enter | giveUp | rewind | leave | finish | idle => exact h

/-- The strawberries of a stream, up to any event, are different rewards of the maze. -/
theorem collected_of_prefix {program : Program} {maze : Maze} {player : Player} {maxDepth : Nat}
    {sent : List Event} (h : sent <+: (start program maze player maxDepth).stream) :
    (Event.collectedPositions sent).Nodup ∧
      Event.collectedPositions sent ⊆ maze.layout.rewards.toList := by
  let m := start program maze player maxDepth
  have htaken : m.last.walk.taken.toList = Event.collectedPositions m.stream :=
    (Records.after m m.work).taken_eq
  have hrewards : m.last.TakesRewards :=
    run_induction (motive := fun _ m => m.TakesRewards)
      (fun _ hp => absurd hp OrderedSet.not_mem_empty) (fun _ _ hm => hm.step) m.work
  have hmaze : m.last.maze = maze := (m.kept_after m.work).1
  have hsent : Event.collectedPositions sent <+: m.last.walk.taken.toList :=
    htaken ▸ h.filterMap _
  refine ⟨hsent.sublist.nodup m.last.walk.taken.nodup, fun p hp => ?_⟩
  have hp := hrewards p (hsent.subset hp)
  rw [hmaze] at hp
  exact of_decide_eq_true hp

end Machine

/-- A run that is made in a session: the program, who runs it, and who listens. -/
structure Outing (σ : Type) where
  /-- The program. -/
  program : Program
  /-- The limit of depth. -/
  maxDepth : Nat
  /-- The player, one left by a run before or a new one. -/
  player : Player
  /-- The listener. -/
  listener : Listener σ
  /-- The listener at first. -/
  state : σ
  /-- Whether the stop signal is up from the beginning. -/
  stopped : Bool

/-- What is there after a run of a session. -/
structure Round where
  /-- The events that the listener accepted. -/
  heard : List Event
  /-- The maze without the strawberries heard of. -/
  left : Maze

/-- The strawberries that were heard of in some rounds, in order. -/
def Round.collected (rounds : List Round) : List Position :=
  Event.collectedPositions (rounds.flatMap heard)

theorem Round.collected_cons (r : Round) (rounds : List Round) :
    collected (r :: rounds) = Event.collectedPositions r.heard ++ collected rounds := by
  rw [collected, List.flatMap_cons, Event.collectedPositions_append]
  rfl

namespace Outing

variable {σ : Type}

/-- The events that the listener accepts when the outing is made on a maze. -/
def heard (o : Outing σ) (maze : Maze) : List Event :=
  accepted (Run.under o.listener.recorded o.maxDepth o.program maze o.player o.stopped
    ([], o.state)).listener.1

/-- The outing made on a maze. -/
def go (o : Outing σ) (maze : Maze) : Round :=
  ⟨o.heard maze, maze.withoutRewards (Event.collectedPositions (o.heard maze))⟩

/-- Several outings, the first of them on a maze and each of the others on the maze that is left by
the one before. -/
def goAll : Maze → List (Outing σ) → List Round
  | _, [] => []
  | maze, o :: outings => o.go maze :: goAll (o.go maze).left outings

/-- An outing of a listener who keeps every event. -/
def kept (program : Program) (maxDepth : Nat) (player : Player) : Outing (List Event) :=
  ⟨program, maxDepth, player, .keeper, [], false⟩

/-- The outing comes to one of the three ends of a run. -/
theorem ends (o : Outing σ) (maze : Maze) :
    Ends (.start o.program maze o.player o.maxDepth) o.stopped
      (Run.under o.listener.recorded o.maxDepth o.program maze o.player o.stopped ([], o.state)) :=
  ends_of_tracks (Courier.tracks_ofMachine rfl) rfl (by simp [isUp])

/-- The strawberries that are heard of in an outing are different rewards of its maze. -/
theorem collected_heard (o : Outing σ) (maze : Maze) :
    (Event.collectedPositions (o.heard maze)).Nodup ∧
      Event.collectedPositions (o.heard maze) ⊆ maze.layout.rewards.toList := by
  obtain ⟨sent, hsent, hheard⟩ := (o.ends maze).exists_accepted
  have hcollected : Event.collectedPositions (o.heard maze) = Event.collectedPositions sent := by
    rcases hheard with hheard | hheard
    · rw [heard, hheard]
    · rw [heard, hheard, Event.collectedPositions_append]
      exact List.append_nil _
  rw [hcollected]
  exact Machine.collected_of_prefix hsent

/-- A listener who keeps every event hears all that is told. -/
theorem heard_kept (program : Program) (maxDepth : Nat) (player : Player) (maze : Maze) :
    (kept program maxDepth player).heard maze = (Run.collect maxDepth program maze player).1 := by
  let m := Machine.start program maze player maxDepth
  obtain ⟨_, -, hcollect⟩ := Run.collect_eq maxDepth program maze player
  obtain ⟨r, hr, hdrive⟩ := drive_keeper (Courier.tracks_ofMachine (m := m) rfl)
  obtain ⟨history, hrecorded⟩ := drive_recorded .keeper (.ofMachine m) false [] []
  rw [List.reverse_nil] at hdrive
  rw [hdrive] at hrecorded
  have hends : Ends m false (drive Listener.keeper.recorded (.ofMachine m) false ([], [])) :=
    (kept program maxDepth player).ends maze
  have hheard : (kept program maxDepth player).heard maze =
      accepted (drive Listener.keeper.recorded (.ofMachine m) false ([], [])).listener.1 := rfl
  rw [hrecorded] at hends hheard
  rw [hheard, hcollect]
  rcases hends with hcarried | hsigned | hdropped
  · exact accepted_of_offers hcarried.offers_eq
  · obtain ⟨_, hcut⟩ := hsigned.cutShort
    exact absurd hr hcut.report?_ne
  · obtain ⟨_, hcut⟩ := hdropped.cutShort
    exact absurd hr hcut.report?_ne

theorem length_goAll (maze : Maze) (outings : List (Outing σ)) :
    (goAll maze outings).length = outings.length := by
  induction outings generalizing maze with
  | nil => rfl
  | cons o outings ih => rw [goAll, List.length_cons, List.length_cons, ih]

/-- An outing leaves the maze without the strawberries heard of. -/
theorem without_go (o : Outing σ) (maze : Maze) :
    maze.Without (Event.collectedPositions (o.heard maze)) (o.go maze).left :=
  maze.without_withoutRewards _

/-- The strawberries heard of in several outings are different rewards of the maze at first: those
of the later outings are rewards that are left by the first one. -/
theorem collected_goAll (maze : Maze) (outings : List (Outing σ)) :
    (Round.collected (goAll maze outings)).Nodup ∧
      Round.collected (goAll maze outings) ⊆ maze.layout.rewards.toList := by
  induction outings generalizing maze with
  | nil => exact ⟨List.nodup_nil, List.nil_subset _⟩
  | cons o outings ih =>
    obtain ⟨hnodup, hsubset⟩ := o.collected_heard maze
    obtain ⟨hnodup', hsubset'⟩ := ih (o.go maze).left
    have hlater : ∀ p ∈ Round.collected (goAll (o.go maze).left outings),
        p ∈ maze.layout.rewards.toList ∧ p ∉ Event.collectedPositions (o.heard maze) := by
      intro p hp
      have hp := hsubset' hp
      rw [(o.without_go maze).rewards_eq, List.mem_filter] at hp
      exact ⟨hp.1, of_decide_eq_true hp.2⟩
    rw [goAll, Round.collected_cons]
    refine ⟨List.nodup_append.mpr ⟨hnodup, hnodup', ?_⟩, List.append_subset.mpr ⟨hsubset, ?_⟩⟩
    · rintro p hp _ hp' rfl
      exact (hlater p hp').2 hp
    · exact fun p hp => (hlater p hp).1

/-- Each of several outings leaves the maze without the strawberries heard of so far. -/
theorem without_goAll (maze : Maze) (outings : List (Outing σ)) (k : Nat)
    (h : k < (goAll maze outings).length) :
    maze.Without (Round.collected ((goAll maze outings).take (k + 1)))
      (goAll maze outings)[k].left := by
  induction outings generalizing maze k with
  | nil => exact absurd h (Nat.not_lt_zero k)
  | cons o outings ih =>
    simp only [goAll, List.take_succ_cons, Round.collected_cons]
    cases k with
    | zero => exact (o.without_go maze).trans (.refl _)
    | succ k => exact (o.without_go maze).trans (ih _ k (Nat.lt_of_succ_lt_succ h))

/-- Any outings are made on a maze, one after another, and after each the strawberries that its
listener heard of are taken away. Then none is heard of twice; all are rewards of the maze at first;
and after each outing the maze is as at first but for its rewards, of which those are left, in their
order, that were not heard of so far. With a listener who keeps every event an outing is what
`Session.play` is. -/
theorem rewards_are_had_once (maze : Maze) (outings : List (Outing σ)) :
    let rounds := goAll maze outings
    rounds.length = outings.length ∧
      (Round.collected rounds).Nodup ∧
      Round.collected rounds ⊆ maze.layout.rewards.toList ∧
      (∀ k (h : k < rounds.length),
        rounds[k].left.layout = { maze.layout with rewards := rounds[k].left.layout.rewards } ∧
          rounds[k].left.layout.rewards.toList =
            maze.layout.rewards.toList.filter (· ∉ Round.collected (rounds.take (k + 1)))) ∧
      ∀ (s : Session) (maxDepth : Nat) (carry : Bool) (program : Program),
        let played := s.play maxDepth carry program
        (kept program maxDepth s.player).go s.maze = ⟨played.1, played.2.2.maze⟩ := by
  intro rounds
  obtain ⟨hnodup, hsubset⟩ := collected_goAll maze outings
  refine ⟨length_goAll maze outings, hnodup, hsubset, fun k h => ?_, ?_⟩
  · have hleft := without_goAll maze outings k h
    exact ⟨hleft.layout_eq, hleft.rewards_eq⟩
  · intro s maxDepth carry program
    rw [go, heard_kept]
    rfl

end Outing

end Labyrinth
