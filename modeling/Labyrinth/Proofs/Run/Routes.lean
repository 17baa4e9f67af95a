import Labyrinth.Proofs.Run.Simulation

/-!
# Which goals can be won

A program of moves wins a maze if its run ends on the goal. What a player holds on the way
depends on the strawberries picked up and on every hazard met so far, and a hazard that cannot be
paid for undoes the way made. A route that can be afforded says the same without a player: on
every part of it from the beginning, there are no more hazards than strawberries.
`Maze.exists_wins_iff` is the equivalence. The way of a player is followed move by move, and a
player who is sent back has only lost the route made so far.
-/

namespace Labyrinth

namespace Maze

/-- The hazards met on a route, every time that one is met. -/
def hazardsOn (m : Maze) (route : List Position) : Nat := route.countP m.isHazard

/-- The strawberries that lie on a route, each of them once. -/
def rewardsOn (m : Maze) (route : List Position) : Nat :=
  m.layout.rewards.toList.countP (· ∈ route)

/-- The routes from a cell that can be afforded with so many strawberries at first, and the cells
they lead to; a route is the cells entered one after another. -/
inductive Affords (m : Maze) (start : Position) (held : Nat) : List Position → Position → Prop
  /-- No cell is entered. -/
  | here : Affords m start held [] start
  /-- A neighbour of the last cell is entered, and all hazards met are paid for. -/
  | move {route : List Position} {p : Position} (d : Direction)
    (before : Affords m start held route p) (walkable : m.isWalkable (p.step d) = true)
    (paid : m.hazardsOn (route ++ [p.step d]) ≤ held + m.rewardsOn (route ++ [p.step d])) :
    Affords m start held (route ++ [p.step d]) (p.step d)

/-- No hazard lies on a strawberry. -/
def Fair (m : Maze) : Prop := ∀ q, m.isHazard q = true → m.isReward q = false

/-- The run of these moves ends on the goal. -/
def Wins (m : Maze) (maxDepth : Nat) (player : Player) (moves : List Direction) : Prop :=
  (Machine.start (moves.map .move) m player maxDepth).last.ending? = some (.completed true)

variable {m : Maze} {start p : Position} {held : Nat} {route : List Position}

theorem hazardsOn_append (m : Maze) (route : List Position) (p : Position) :
    m.hazardsOn (route ++ [p]) = m.hazardsOn route + if m.isHazard p then 1 else 0 := by
  rw [hazardsOn, List.countP_append, List.countP_singleton, hazardsOn]

theorem Fair.not_isHazard (h : m.Fair) {q : Position} (hq : m.isReward q = true) :
    ¬ m.isHazard q = true := by
  intro hhazard
  rw [h q hhazard] at hq
  cases hq

/-- A strawberry counts where it is met first. -/
theorem rewardsOn_append (m : Maze) (route : List Position) (p : Position) :
    m.rewardsOn (route ++ [p]) =
      m.rewardsOn route + if m.isReward p ∧ p ∉ route then 1 else 0 := by
  have hcount (cells : List Position) (h : cells.Nodup) :
      cells.countP (· ∈ route ++ [p]) =
        cells.countP (· ∈ route) + if p ∈ cells ∧ p ∉ route then 1 else 0 := by
    induction cells with
    | nil => simp
    | cons c cells ih =>
      obtain ⟨hc, hcells⟩ := List.nodup_cons.mp h
      rw [List.countP_cons, List.countP_cons, ih hcells]
      by_cases hcp : c = p
      · subst hcp
        by_cases hroute : c ∈ route <;> simp [hc, hroute]
      · by_cases hroute : c ∈ route
        · simp [hroute, Ne.symm hcp]
          omega
        · simp [hroute, hcp, Ne.symm hcp]
  rw [rewardsOn, hcount _ m.layout.rewards.nodup, rewardsOn]
  simp [isReward, OrderedSet.mem_def]

/-- There are no more strawberries on a route than in the maze. -/
theorem rewardsOn_le (m : Maze) (route : List Position) :
    m.rewardsOn route ≤ m.layout.rewards.size :=
  List.countP_le_length

end Maze

namespace Meaning

/-- What one move does to a player and the strawberries picked up. -/
inductive Moves (m : Maze) (d : Direction) (s : Standing) : Standing → Prop
  /-- The cell ahead cannot be entered. -/
  | blocked (h : m.isWalkable (s.player.position.step d) = false) : Moves m d s s
  /-- A strawberry is picked up. -/
  | reward (walkable : m.isWalkable (s.player.position.step d) = true)
    (fresh : m.isReward (s.player.position.step d) = true ∧
      s.player.position.step d ∉ s.taken) :
    Moves m d s
      ⟨{ s.player with
          position := s.player.position.step d
          strawberries := min (s.player.strawberries + 1) maxStrawberries },
        s.taken ++ [s.player.position.step d]⟩
  /-- A hazard takes a strawberry. -/
  | lifeLost (walkable : m.isWalkable (s.player.position.step d) = true)
    (hazard : m.isHazard (s.player.position.step d) = true) (pos : 0 < s.player.strawberries) :
    Moves m d s
      ⟨{ s.player with
          position := s.player.position.step d
          strawberries := s.player.strawberries - 1 }, s.taken⟩
  /-- A hazard sends the player back. -/
  | sentBack (hazard : m.isHazard (s.player.position.step d) = true)
    (zero : s.player.strawberries = 0) :
    Moves m d s ⟨{ s.player with position := s.player.start }, s.taken⟩
  /-- Nothing happens. -/
  | free (walkable : m.isWalkable (s.player.position.step d) = true)
    (stale : m.isReward (s.player.position.step d) = true → s.player.position.step d ∈ s.taken)
    (safe : m.isHazard (s.player.position.step d) = false) :
    Moves m d s ⟨{ s.player with position := s.player.position.step d }, s.taken⟩

/-- Every move does one of these. -/
theorem moves_move (m : Maze) (d : Direction) (s : Standing) : Moves m d s (move m d s).2 := by
  unfold move
  dsimp only
  split
  next h => exact .blocked h
  next h =>
    rw [Bool.not_eq_false] at h
    split
    next hfresh => exact .reward h hfresh
    next hstale =>
      split
      next hhazard =>
        split
        next hpos => exact .lifeLost h hhazard hpos
        next hzero => exact .sentBack hhazard (Nat.eq_zero_of_not_pos hzero)
      next hsafe =>
        refine .free h (fun hreward => ?_) (Bool.eq_false_iff.mpr hsafe)
        exact Decidable.not_not.mp fun hnew => hstale ⟨hreward, hnew⟩

/-- What some moves leave behind, one after another. -/
def travel (m : Maze) (moves : List Direction) (s : Standing) : Standing :=
  moves.foldl (fun s d => (move m d s).2) s

theorem travel_append (m : Maze) (moves : List Direction) (d : Direction) (s : Standing) :
    travel m (moves ++ [d]) s = (move m d (travel m moves s)).2 := by
  simp [travel]

/-- A program of moves is carried through and leaves behind what its moves do. -/
theorem program_moves (m : Maze) (maxDepth depth : Nat) (moves : List Direction) (s : Standing) :
    (program m maxDepth (moves.map .move) depth s).tooDeep = false ∧
      (program m maxDepth (moves.map .move) depth s).standing = travel m moves s := by
  induction moves generalizing s with
  | nil => exact ⟨rfl, rfl⟩
  | cons d moves ih =>
    obtain ⟨hdeep, hstanding⟩ := ih (move m d s).2
    rw [List.map_cons, program, instruction]
    simp only [Account.andThen, Bool.false_eq_true, if_false]
    exact ⟨hdeep, hstanding⟩

end Meaning

/-- Moves win exactly if they lead to the goal. -/
theorem Maze.wins_iff {m : Maze} {maxDepth : Nat} {player : Player} {moves : List Direction} :
    m.Wins maxDepth player moves ↔
      m.goal = some (Meaning.travel m moves ⟨player, []⟩).player.position := by
  obtain ⟨n, -, hp⟩ := Machine.exists_course (moves.map .move) m player maxDepth
  obtain ⟨hdeep, hstanding⟩ := Meaning.program_moves m maxDepth 0 moves ⟨player, []⟩
  rw [Account.ending, hdeep, hstanding, if_neg (by simp)] at hp
  have hending : ((Machine.start (moves.map .move) m player maxDepth).after n).ending? =
      some (.completed (m.goal = some (Meaning.travel m moves ⟨player, []⟩).player.position)) := by
    rw [Machine.ending?, hp.phase_eq]
  have hover : ((Machine.start (moves.map .move) m player maxDepth).after n).isOver = true := by
    rw [Machine.isOver, hending]
    rfl
  rw [Wins, ← Machine.last_of_isOver_after hover, hending]
  simp

namespace Standing

variable {m : Maze} {start p : Position} {held : Nat} {route : List Position} {s : Standing}

/-- A player whose strawberries are no more than a route to where the player stands gives. -/
structure Funded (m : Maze) (start : Position) (held : Nat) (route : List Position)
    (s : Standing) : Prop where
  /-- The route leads to where the player stands. -/
  affords : m.Affords start held route s.player.position
  /-- What is held and what was paid is no more than what was found. -/
  funds : s.player.strawberries + m.hazardsOn route ≤ held + m.rewardsOn route
  /-- The strawberries of the route are picked up. -/
  taken : ∀ q ∈ route, m.isReward q = true → q ∈ s.taken
  /-- The player is sent back to the beginning of the route. -/
  home : s.player.start = start

/-- A player who has taken a route from the beginning, and nothing else. -/
structure Took (m : Maze) (held : Nat) (route : List Position) (p : Position) (s : Standing) :
    Prop where
  /-- The player stands where the route leads. -/
  position : s.player.position = p
  /-- What is held and what was paid is all that was found. -/
  funds : s.player.strawberries + m.hazardsOn route = held + m.rewardsOn route
  /-- The strawberries of the route are picked up, and no others. -/
  taken : ∀ q, m.isReward q = true → (q ∈ s.taken ↔ q ∈ route)

/-- A move keeps a route to where the player stands, a new one if the player is sent back. -/
theorem Funded.move (hfair : m.Fair) (h : s.Funded m start held route) (d : Direction) :
    ∃ route, (Meaning.move m d s).2.Funded m start held route := by
  have hmoves := Meaning.moves_move m d s
  generalize (Meaning.move m d s).2 = next at hmoves ⊢
  obtain ⟨haffords, hfunds, htaken, rfl⟩ := h
  have hhazards := m.hazardsOn_append route (s.player.position.step d)
  have hrewards := m.rewardsOn_append route (s.player.position.step d)
  have hpicked {taken : List Position} (hmore : s.taken ⊆ taken)
      (hlast : m.isReward (s.player.position.step d) = true →
        s.player.position.step d ∈ taken) :
      ∀ q ∈ route ++ [s.player.position.step d], m.isReward q = true → q ∈ taken := by
    intro q hq hreward
    rcases List.mem_append.mp hq with hroute | hentered
    · exact hmore (htaken q hroute hreward)
    · obtain rfl := List.mem_singleton.mp hentered
      exact hlast hreward
  cases hmoves with
  | blocked hwall => exact ⟨route, haffords, hfunds, htaken, rfl⟩
  | reward hwalk hfresh =>
    have hnew : s.player.position.step d ∉ route := fun hroute =>
      hfresh.2 (htaken _ hroute hfresh.1)
    rw [if_neg (hfair.not_isHazard hfresh.1)] at hhazards
    rw [if_pos ⟨hfresh.1, hnew⟩] at hrewards
    refine ⟨_, .move d haffords hwalk (by omega), ?_,
      hpicked (List.subset_append_left _ _) (by simp), rfl⟩
    dsimp only
    omega
  | lifeLost hwalk hhazard hpos =>
    rw [if_pos hhazard] at hhazards
    refine ⟨_, .move d haffords hwalk (by omega), ?_,
      hpicked (List.Subset.refl _) (by simp [hfair _ hhazard]), rfl⟩
    dsimp only
    omega
  | sentBack hhazard hzero =>
    -- The way made is lost; the strawberries on it stay picked up.
    refine ⟨[], .here, ?_, nofun, rfl⟩
    simp [hzero, Maze.hazardsOn]
  | free hwalk hstale hsafe =>
    rw [if_neg (by simp [hsafe])] at hhazards
    refine ⟨_, .move d haffords hwalk (by omega), ?_, hpicked (List.Subset.refl _) hstale, rfl⟩
    dsimp only
    omega

/-- A player who begins at the beginning always has a route to where the player stands. -/
theorem exists_funded (hfair : m.Fair) (moves : List Direction)
    (hs : s.Funded m start held route) :
    ∃ route, (Meaning.travel m moves s).Funded m start held route := by
  induction moves generalizing s route with
  | nil => exact ⟨route, hs⟩
  | cons d moves ih =>
    obtain ⟨_, hnext⟩ := hs.move hfair d
    exact ih hnext

/-- A player who has taken a route takes one more cell of it. -/
theorem Took.move (hfair : m.Fair) (hfew : held + m.layout.rewards.size ≤ maxStrawberries)
    (h : s.Took m held route p) (d : Direction) (hwalk : m.isWalkable (p.step d) = true)
    (hpaid : m.hazardsOn (route ++ [p.step d]) ≤ held + m.rewardsOn (route ++ [p.step d])) :
    (Meaning.move m d s).2.Took m held (route ++ [p.step d]) (p.step d) := by
  have hmoves := Meaning.moves_move m d s
  generalize (Meaning.move m d s).2 = next at hmoves ⊢
  obtain ⟨rfl, hfunds, htaken⟩ := h
  have hbound := m.rewardsOn_le (route ++ [s.player.position.step d])
  have hhazards := m.hazardsOn_append route (s.player.position.step d)
  have hrewards := m.rewardsOn_append route (s.player.position.step d)
  -- Where no new strawberry lies, the picked up ones stay those of the route.
  have hkept (hold : m.isReward (s.player.position.step d) = true →
      s.player.position.step d ∈ s.taken) (q : Position) (hq : m.isReward q = true) :
      q ∈ s.taken ↔ q ∈ route ++ [s.player.position.step d] := by
    rw [List.mem_append, List.mem_singleton, htaken q hq]
    refine ⟨.inl, fun h => h.elim id ?_⟩
    rintro rfl
    exact (htaken _ hq).mp (hold hq)
  cases hmoves with
  | blocked hwall =>
    rw [hwall] at hwalk
    cases hwalk
  | reward _ hfresh =>
    have hnew : s.player.position.step d ∉ route := fun hroute =>
      hfresh.2 ((htaken _ hfresh.1).mpr hroute)
    rw [if_neg (hfair.not_isHazard hfresh.1)] at hhazards
    rw [if_pos ⟨hfresh.1, hnew⟩] at hrewards
    refine ⟨rfl, ?_, ?_⟩
    · dsimp only
      omega
    · intro q hq
      simp only [List.mem_append, htaken q hq]
  | lifeLost _ hhazard hpos =>
    have hnone := hfair _ hhazard
    rw [if_pos hhazard] at hhazards
    rw [if_neg (by simp [hnone])] at hrewards
    refine ⟨rfl, ?_, hkept (by simp [hnone])⟩
    dsimp only
    omega
  | sentBack hhazard hzero =>
    have hnone := hfair _ hhazard
    rw [if_pos hhazard] at hhazards
    rw [if_neg (by simp [hnone])] at hrewards
    omega
  | free _ hstale hsafe =>
    rw [if_neg (by simp [hsafe])] at hhazards
    rw [if_neg fun h => h.2 ((htaken _ h.1).mp (hstale h.1))] at hrewards
    refine ⟨rfl, ?_, hkept hstale⟩
    dsimp only
    omega

/-- Some moves take a route that can be afforded. -/
theorem exists_took (hfair : m.Fair) (hfew : held + m.layout.rewards.size ≤ maxStrawberries)
    (h : m.Affords start held route p) :
    ∃ moves, (Meaning.travel m moves ⟨⟨start, held, start⟩, []⟩).Took m held route p := by
  induction h with
  | here =>
    refine ⟨[], rfl, ?_, ?_⟩
    · simp [Meaning.travel, Maze.hazardsOn, Maze.rewardsOn]
    · simp [Meaning.travel]
  | @move route p d _ hwalk hpaid ih =>
    obtain ⟨moves, htook⟩ := ih
    refine ⟨moves ++ [d], ?_⟩
    rw [Meaning.travel_append]
    exact htook.move hfair hfew d hwalk hpaid

end Standing

/-- Where no hazard lies on a strawberry and the strawberries can be counted, some moves win exactly
if a route to the goal can be afforded. -/
theorem Maze.exists_wins_iff {m : Maze} {held : Nat} (hfair : m.Fair)
    (hfew : held + m.layout.rewards.size ≤ maxStrawberries) (start : Position) (maxDepth : Nat) :
    (∃ moves, m.Wins maxDepth ⟨start, held, start⟩ moves) ↔
      ∃ goal route, m.goal = some goal ∧ m.Affords start held route goal := by
  simp only [wins_iff]
  constructor
  · rintro ⟨moves, hgoal⟩
    have hstart : Standing.Funded m start held [] ⟨⟨start, held, start⟩, []⟩ :=
      ⟨.here, by simp [hazardsOn], nofun, rfl⟩
    obtain ⟨route, hfunded⟩ := Standing.exists_funded hfair moves hstart
    exact ⟨_, route, hgoal, hfunded.affords⟩
  · rintro ⟨goal, route, hgoal, haffords⟩
    obtain ⟨moves, htook⟩ := Standing.exists_took hfair hfew haffords
    exact ⟨moves, by rw [htook.position, hgoal]⟩

end Labyrinth
