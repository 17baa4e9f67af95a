import Labyrinth.Maze

/-!
# Which descriptions are accepted

A maze is described by the size of its grid and a row of edits. The last start and the last goal
count, and every wall, hazard and reward. `Layout.requirements` lists what is wanted of such a
description, in the order in which it is looked at, each with the error that is given where it does
not hold; a description is accepted exactly if all hold, and else the error is that of the first one
that does not.
-/

namespace Labyrinth

/-- The cells that an edit gives to landmarks of a kind. -/
def LayoutEdit.cells : Landmark → LayoutEdit → List Position
  | .start, .start p => [p]
  | .goal, .goal p => [p]
  | .wall, .walls ps => ps
  | .hazard, .hazards ps => ps
  | .reward, .rewards ps => ps
  | _, _ => []

namespace Layout

/-- The cells that some edits give to landmarks of a kind, as often as they do. -/
def given (what : Landmark) (edits : List LayoutEdit) : List Position :=
  edits.flatMap (LayoutEdit.cells what)

/-- The start that was put last, or the first cell. -/
def lastStart (edits : List LayoutEdit) : Position := (given .start edits).getLastD ⟨0, 0⟩

/-- The goal that was put last, if there is one. -/
def lastGoal (edits : List LayoutEdit) : Option Position := (given .goal edits).getLast?

/-- The layout that is described by a size and some edits. -/
def described (width height : Nat) (edits : List LayoutEdit) : Layout where
  width := width
  height := height
  start := lastStart edits
  goal := lastGoal edits
  walls := .ofList (given .wall edits)
  hazards := .ofList (given .hazard edits)
  rewards := .ofList (given .reward edits)

theorem given_append (what : Landmark) (es fs : List LayoutEdit) :
    given what (es ++ fs) = given what es ++ given what fs := List.flatMap_append

theorem given_singleton (what : Landmark) (e : LayoutEdit) : given what [e] = e.cells what :=
  List.flatMap_singleton _ _

/-- An edit replaces the start or the goal, or adds to one of the sets. -/
theorem edit_described (width height : Nat) (edits : List LayoutEdit) (e : LayoutEdit) :
    (described width height edits).edit e = described width height (edits ++ [e]) := by
  cases e <;>
    simp [described, edit, lastStart, lastGoal, given_append, given_singleton, LayoutEdit.cells,
      OrderedSet.ofList, OrderedSet.insertAll, List.foldl_append]

/-- Edits make of an empty grid what they describe. -/
theorem editAll_blank (width height : Nat) (edits : List LayoutEdit) :
    (blank width height).editAll edits = described width height edits := by
  have hrun (before : List LayoutEdit) :
      (described width height before).editAll edits = described width height (before ++ edits) := by
    induction edits generalizing before with
    | nil => rw [List.append_nil, editAll, List.foldl_nil]
    | cons e edits ih =>
      rw [editAll, List.foldl_cons, edit_described]
      exact (ih _).trans (by rw [List.append_assoc, List.singleton_append])
  exact hrun []

/-- Something that is wanted of a description. -/
structure Requirement where
  /-- Whether it holds. -/
  holds : Bool
  /-- What is wrong if it does not. -/
  error : MazeError

/-- A landmark is wanted on the grid. -/
def wantsInside (width height : Nat) (what : Landmark) (p : Position) : Requirement :=
  ⟨(blank width height).InBounds p, .outOfBounds what p⟩

/-- A landmark is wanted where no wall was put. -/
def wantsOpen (edits : List LayoutEdit) (what : Landmark) (p : Position) : Requirement :=
  ⟨p ∉ given .wall edits, .blockedCell what p⟩

/-- What is wanted of a description, in the order in which it is looked at. -/
def requirements (width height : Nat) (edits : List LayoutEdit) : List Requirement :=
  [⟨0 < width ∧ 0 < height, .emptyGrid⟩,
    ⟨width ≤ maxSide ∧ height ≤ maxSide, .tooLarge width height⟩]
    ++ [lastStart edits].map (wantsInside width height .start)
    ++ (lastGoal edits).toList.map (wantsInside width height .goal)
    ++ (given .wall edits).map (wantsInside width height .wall)
    ++ (given .hazard edits).map (wantsInside width height .hazard)
    ++ (given .reward edits).map (wantsInside width height .reward)
    ++ [lastStart edits].map (wantsOpen edits .start)
    ++ (lastGoal edits).toList.map (wantsOpen edits .goal)

/-- The error of the first requirement that does not hold. -/
def firstError? (rs : List Requirement) : Option MazeError :=
  (rs.find? fun r => !r.holds).map Requirement.error

theorem firstError?_append (rs ts : List Requirement) :
    firstError? (rs ++ ts) = (firstError? rs).or (firstError? ts) := by
  rw [firstError?, List.find?_append, Option.map_or]
  rfl

theorem firstError?_size (width height : Nat) (edits : List LayoutEdit) :
    firstError? [⟨0 < width ∧ 0 < height, .emptyGrid⟩,
      ⟨width ≤ maxSide ∧ height ≤ maxSide, .tooLarge width height⟩] =
      (described width height edits).sizeFault? := by
  have hempty : (width = 0 ∨ height = 0) ↔ ¬ (0 < width ∧ 0 < height) := by omega
  have hlarge : (maxSide < width ∨ maxSide < height) ↔ ¬ (width ≤ maxSide ∧ height ≤ maxSide) := by
    omega
  simp only [sizeFault?, described, hempty, hlarge, firstError?, List.find?_cons]
  by_cases hpos : 0 < width ∧ 0 < height <;>
    by_cases hside : width ≤ maxSide ∧ height ≤ maxSide <;> simp [hpos, hside]

theorem firstError?_inside (width height : Nat) (edits : List LayoutEdit) (what : Landmark)
    (ps : List Position) :
    firstError? (ps.map (wantsInside width height what)) =
      (described width height edits).outsideFault? what ps := by
  have hfails : (fun r : Requirement => !r.holds) ∘ wantsInside width height what =
      fun p => decide (¬ (described width height edits).InBounds p) :=
    funext fun _ => (decide_not).symm
  rw [firstError?, List.find?_map, Option.map_map, outsideFault?, hfails]
  rfl

theorem firstError?_open (width height : Nat) (edits : List LayoutEdit) (what : Landmark)
    (ps : List Position) :
    firstError? (ps.map (wantsOpen edits what)) =
      (described width height edits).blockedFault? what ps := by
  have hfails : (fun r : Requirement => !r.holds) ∘ wantsOpen edits what =
      fun p => decide (p ∈ (described width height edits).walls) :=
    funext fun _ => by simp [wantsOpen, described, OrderedSet.mem_ofList]
  rw [firstError?, List.find?_map, Option.map_map, blockedFault?, hfails]
  rfl

/-- The first fault of a layout is the error of the first requirement on its description that does
not hold. A landmark that is put in several times is looked at where it was put first. -/
theorem fault?_described (width height : Nat) (edits : List LayoutEdit) :
    (described width height edits).fault? = firstError? (requirements width height edits) := by
  have hset (what : Landmark) (ps : List Position) :
      (described width height edits).outsideFault? what ps =
        (described width height edits).outsideFault? what (OrderedSet.ofList ps).toList := by
    rw [outsideFault?, outsideFault?, OrderedSet.ofList, OrderedSet.find?_insertAll]
    rfl
  simp only [requirements, firstError?_append, firstError?_size width height edits,
    firstError?_inside width height edits, firstError?_open width height edits]
  rw [hset .wall, hset .hazard, hset .reward]
  rfl

/-- What makes a description one of a maze. -/
structure Acceptable (width height : Nat) (edits : List LayoutEdit) : Prop where
  /-- There are columns, and all have coordinates. -/
  width_range : 1 ≤ width ∧ width ≤ maxSide
  /-- There are rows, and all have coordinates. -/
  height_range : 1 ≤ height ∧ height ≤ maxSide
  /-- The last start lies on the grid. -/
  start_inside : (blank width height).InBounds (lastStart edits)
  /-- The last goal, if there is one, lies on the grid. -/
  goal_inside : ∀ p ∈ lastGoal edits, (blank width height).InBounds p
  /-- Every wall, hazard and reward lies on the grid. -/
  sets_inside : ∀ what ∈ [Landmark.wall, .hazard, .reward], ∀ p ∈ given what edits,
    (blank width height).InBounds p
  /-- No wall was put on the last start. -/
  start_open : lastStart edits ∉ given .wall edits
  /-- No wall was put on the last goal. -/
  goal_open : ∀ p ∈ lastGoal edits, p ∉ given .wall edits

/-- A description is acceptable exactly if the layout it describes is valid. -/
theorem valid_described_iff {width height : Nat} {edits : List LayoutEdit} :
    (described width height edits).Valid ↔ Acceptable width height edits := by
  have hwall (p : Position) :
      p ∈ (described width height edits).walls ↔ p ∈ given .wall edits := OrderedSet.mem_ofList
  constructor
  · intro h
    refine ⟨⟨h.width_pos, h.width_le⟩, ⟨h.height_pos, h.height_le⟩, h.walkable_start.1,
      fun p hp => (h.walkable_goal p hp).1, ?_, fun hp => h.walkable_start.2 ((hwall _).mpr hp),
      fun p hp hin => (h.walkable_goal p hp).2 ((hwall p).mpr hin)⟩
    simp only [List.mem_cons, List.not_mem_nil, or_false, forall_eq_or_imp, forall_eq]
    exact ⟨fun p hp => h.inBounds_walls p (OrderedSet.mem_ofList.mpr hp),
      fun p hp => h.inBounds_hazards p (OrderedSet.mem_ofList.mpr hp),
      fun p hp => h.inBounds_rewards p (OrderedSet.mem_ofList.mpr hp)⟩
  · intro h
    have hsets := h.sets_inside
    simp only [List.mem_cons, List.not_mem_nil, or_false, forall_eq_or_imp, forall_eq] at hsets
    exact
      { width_pos := h.width_range.1
        height_pos := h.height_range.1
        width_le := h.width_range.2
        height_le := h.height_range.2
        walkable_start := ⟨h.start_inside, fun hp => h.start_open ((hwall _).mp hp)⟩
        walkable_goal := fun p hp =>
          ⟨h.goal_inside p hp, fun hin => h.goal_open p hp ((hwall p).mp hin)⟩
        inBounds_walls := fun p hp => hsets.1 p (OrderedSet.mem_ofList.mp hp)
        inBounds_hazards := fun p hp => hsets.2.1 p (OrderedSet.mem_ofList.mp hp)
        inBounds_rewards := fun p hp => hsets.2.2 p (OrderedSet.mem_ofList.mp hp) }

/-- A layout is refused exactly with its first fault. -/
theorem toMaze_eq_error_iff {l : Layout} {e : MazeError} :
    l.toMaze = .error e ↔ l.fault? = some e := by
  unfold toMaze
  split <;> rename_i h <;> simp [h]

/-- An error is the first one exactly if it is that of a requirement that does not hold, and all
before it do. -/
theorem firstError?_eq_some_iff {rs : List Requirement} {e : MazeError} :
    firstError? rs = some e ↔ ∃ before r after, rs = before ++ r :: after ∧
      (∀ b ∈ before, b.holds) ∧ r.holds = false ∧ r.error = e := by
  simp only [firstError?, Option.map_eq_some_iff, List.find?_eq_some_iff_append]
  constructor
  · rintro ⟨r, ⟨hr, before, after, hrs, hbefore⟩, he⟩
    exact ⟨before, r, after, hrs, by simpa using hbefore, by simpa using hr, he⟩
  · rintro ⟨before, r, after, hrs, hbefore, hr, he⟩
    exact ⟨r, ⟨by simpa using hr, before, after, hrs, by simpa using hbefore⟩, he⟩

/-- The test for a cell on a grid whose sides are 32-bit words: the coordinates are not negative,
and as words without a sign they are less than the sides. -/
def WordsInBounds (width height : UInt32) (x y : Int32) : Prop :=
  0 ≤ x ∧ 0 ≤ y ∧ x.toUInt32 < width ∧ y.toUInt32 < height

/-- A coordinate that is not negative keeps its value when its sign is dropped. -/
theorem toUInt32_lt_iff {x : Int32} (hx : 0 ≤ x) (side : UInt32) :
    x.toUInt32 < side ↔ x.toInt < side.toNat := by
  rw [UInt32.lt_iff_toNat_lt, Int32.toNat_toUInt32_of_le hx, Int32.toInt_eq_toNatClampNeg hx,
    Int.ofNat_lt]

/-- The test on words is the test on the numbers they stand for: no negative coordinate passes by
becoming a large word. -/
theorem wordsInBounds_iff {width height : UInt32} {x y : Int32} :
    WordsInBounds width height x y ↔
      (blank width.toNat height.toNat).InBounds ⟨x.toInt, y.toInt⟩ := by
  have hsign (z : Int32) : 0 ≤ z ↔ 0 ≤ z.toInt := Int32.le_iff_toInt_le
  constructor
  · rintro ⟨hx, hy, hxw, hyh⟩
    exact ⟨(hsign x).mp hx, (toUInt32_lt_iff hx width).mp hxw, (hsign y).mp hy,
      (toUInt32_lt_iff hy height).mp hyh⟩
  · rintro ⟨hx, hxw, hy, hyh⟩
    have hx' := (hsign x).mpr hx
    have hy' := (hsign y).mpr hy
    exact ⟨hx', hy', (toUInt32_lt_iff hx' width).mpr hxw, (toUInt32_lt_iff hy' height).mpr hyh⟩

/-- A description gives a maze exactly if it is acceptable, and then the maze is what it describes:
its sets hold the cells that were put in, each where it was first put in. Else the error is that of
the first requirement that does not hold. Whether a cell is on the grid may be found out with 32-bit
words. -/
theorem toMaze_accepts_the_acceptable (width height : Nat) (edits : List LayoutEdit) :
    (match ((blank width height).editAll edits).toMaze with
      | .ok m =>
        Acceptable width height edits ∧
          m.layout.width = width ∧ m.layout.height = height ∧
          m.start = lastStart edits ∧ m.goal = lastGoal edits ∧
          m.layout.walls.toList = (given .wall edits).eraseDups ∧
          m.layout.hazards.toList = (given .hazard edits).eraseDups ∧
          m.layout.rewards.toList = (given .reward edits).eraseDups
      | .error e =>
        ¬ Acceptable width height edits ∧
          ∃ before r after, requirements width height edits = before ++ r :: after ∧
            (∀ b ∈ before, b.holds) ∧ r.holds = false ∧ r.error = e) ∧
      ∀ (w h : UInt32) (x y : Int32), WordsInBounds w h x y ↔
        (blank w.toNat h.toNat).InBounds ⟨x.toInt, y.toInt⟩ := by
  refine ⟨?_, fun _ _ _ _ => wordsInBounds_iff⟩
  rw [editAll_blank]
  split <;> rename_i built hbuilt
  · have hlayout := toMaze_eq_ok_iff.mp hbuilt
    refine ⟨valid_described_iff.mp (hlayout ▸ built.valid), ?_⟩
    simp only [Maze.start, Maze.goal, hlayout, described, OrderedSet.toList_ofList, and_self]
  · have hfault := toMaze_eq_error_iff.mp hbuilt
    have hfirst := (fault?_described width height edits).symm.trans hfault
    refine ⟨fun hok => ?_, firstError?_eq_some_iff.mp hfirst⟩
    have hnone := fault?_eq_none_iff.mpr (valid_described_iff.mpr hok)
    exact Option.some_ne_none built (hfault.symm.trans hnone)

/-- A wall on the start is found before one on the goal, and both after a reward off the grid. -/
example :
    firstError? (requirements 2 1 [.walls [⟨0, 0⟩, ⟨1, 0⟩], .goal ⟨1, 0⟩]) =
        some (.blockedCell .start ⟨0, 0⟩) ∧
      firstError? (requirements 2 1 [.walls [⟨0, 0⟩], .rewards [⟨0, 0⟩, ⟨2, 0⟩, ⟨-1, 0⟩]]) =
        some (.outOfBounds .reward ⟨2, 0⟩) := by
  decide

end Layout

end Labyrinth
