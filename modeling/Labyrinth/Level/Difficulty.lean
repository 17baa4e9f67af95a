import Labyrinth.Decimal.Shortest

/-!
# How hard a level is

A level number and a mode decide what a level teaches and with which parameters its grid
is generated. Parameters may also be set freely; `Params.fault?` says why a grid cannot
be generated with them. Densities, weights and the ceiling are doubles, and all
arithmetic on them is that of doubles, in the order written here.
-/

namespace Labyrinth

/-- The two kinds of difficulty. -/
inductive Mode where
  /-- Small grids, few enemies, and near exits at first. -/
  | lenient
  /-- Large and dense grids. -/
  | strict
  deriving DecidableEq, Repr

/-- The number of a mode. -/
def Mode.ordinal : Mode → UInt64
  | lenient => 0
  | strict => 1

/-- What a level teaches. -/
inductive Concept where
  /-- Moves one after another. -/
  | sequencing
  /-- Loops. -/
  | loops
  /-- Conditions. -/
  | conditionals
  /-- Functions. -/
  | functions
  deriving DecidableEq, Repr

/-- The first level that teaches a concept. -/
def Concept.firstLevel : Concept → Nat
  | sequencing => 0
  | loops => 3
  | conditionals => 6
  | functions => 9

/-- What a level teaches: everything that was begun up to it. -/
def Concept.taughtAt (level : Nat) : List Concept :=
  [sequencing, loops, conditionals, functions].filter (·.firstLevel ≤ level)

/-- The parameters of a grid. -/
structure Params where
  /-- The number of columns. -/
  width : Nat
  /-- The number of rows. -/
  height : Nat
  /-- The share of the floor that gets hazards. -/
  hazardDensity : Double
  /-- The share of the floor that gets strawberries. -/
  rewardDensity : Double
  /-- The most enemies. -/
  enemyCap : Nat
  /-- The weight of cells next to carved ones. -/
  branching : Double
  /-- The weight of cells away from carved ones. -/
  deadEnd : Double
  /-- The greatest share of hazards, any bonus included. -/
  hazardCeiling : Double
  /-- Whether the exit is near the start and not as far away as possible. -/
  shortExit : Bool

open Double (lesser)

namespace Params

/-- The parameters of a level; level 0 counts as level 1. -/
def forLevel (level : Nat) (mode : Mode) : Params :=
  let level := max level 1
  let x := Double.ofNat level
  let half := min (level / 2) 16
  match mode with
  | .lenient =>
    let side := min (7 + 2 * half) 21
    { width := side
      height := side
      hazardDensity := lesser (0.03 + 0.01 * x) 0.10
      rewardDensity := 0.12
      enemyCap := min (1 + level / 3) 4
      branching := 1.0
      deadEnd := 0.5
      hazardCeiling := 0.12
      shortExit := level ≤ 2 }
  | .strict =>
    let side := min (9 + 2 * half) 25
    { width := side
      height := side
      hazardDensity := lesser (0.05 + 0.015 * x) 0.18
      rewardDensity := 0.08
      enemyCap := min (2 + level / 2) 8
      branching := lesser (1.0 + 0.1 * x) 2.0
      deadEnd := lesser (1.0 + 0.2 * x) 3.0
      hazardCeiling := 0.25
      shortExit := false }

/-- The hardest parameters that a level has. -/
def reference : Params := forLevel 20 .strict

/-- The hardest parameters on a grid larger than that of any level. -/
def stress : Params := { reference with width := 101, height := 101 }

/-- The shares of hazards and of strawberries when something is taught: conditions give more
hazards, up to the ceiling, and loops more strawberries. -/
def densities (p : Params) (concepts : List Concept) : Double × Double :=
  let hazard := if concepts.contains .conditionals then p.hazardDensity + 0.03 else p.hazardDensity
  let reward := if concepts.contains .loops then p.rewardDensity + 0.05 else p.rewardDensity
  (lesser hazard p.hazardCeiling, lesser reward 1.0)

end Params

/-- Why no grid can be generated. -/
inductive ParamsError where
  /-- A side is shorter than five cells. -/
  | tooSmall (width height : Nat)
  /-- A side is longer than coordinates reach. -/
  | tooLarge
  /-- A weight of this name is negative or not finite. -/
  | badWeight (name : String) (value : Double)
  /-- No weight is positive. -/
  | noWeight
  /-- A share of this name is not between 0 and 1. -/
  | badShare (name : String) (value : Double)

/-- The message of a parameter error. -/
def ParamsError.message : ParamsError → String
  | tooSmall w h => "maze must be at least 5x5, got " ++ toString w ++ "x" ++ toString h
  | tooLarge => "maze dimensions exceed coordinate range"
  | badWeight name value => name ++ " must be finite and >= 0, got " ++ Decimal.text value
  | noWeight => "carving weights must not both be zero"
  | badShare name value => name ++ " must be in [0, 1], got " ++ Decimal.text value

namespace Params

/-- A fault of a weight. -/
def weightFault? (name : String) (w : Double) : Option ParamsError :=
  if w.toFloat.isFinite && 0.0 ≤ w.toFloat then none else some (.badWeight name w)

/-- A fault of a share. -/
def shareFault? (name : String) (d : Double) : Option ParamsError :=
  if 0.0 ≤ d.toFloat && d.toFloat ≤ 1.0 then none else some (.badShare name d)

/-- A fault of the size of the grid. -/
def sizeFault? (p : Params) : Option ParamsError :=
  if p.width < 5 ∨ p.height < 5 then some (.tooSmall p.width p.height)
  else if 2147483647 < p.width ∨ 2147483647 < p.height then some .tooLarge
  else none

/-- The first reason why no grid can be generated. -/
def fault? (p : Params) : Option ParamsError :=
  p.sizeFault?
    |>.or (weightFault? "branching_factor" p.branching)
    |>.or (weightFault? "dead_end_favor" p.deadEnd)
    |>.or (if 0.0 < p.branching.toFloat + p.deadEnd.toFloat then none else some .noWeight)
    |>.or (shareFault? "hazard_density" p.hazardDensity)
    |>.or (shareFault? "reward_density" p.rewardDensity)
    |>.or (shareFault? "hazard_ceiling" p.hazardCeiling)

end Params

end Labyrinth
