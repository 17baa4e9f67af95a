import Labyrinth.Level.Build

/-!
# Campaigns

A campaign hands out levels and remembers the number of the last one. A logbook keeps
the levels completed, in order, and knows the best result of each.
-/

namespace Labyrinth

/-- A base seed and the number of the level handed out last. -/
structure Campaign where
  /-- The seed that the seeds of all levels are mixed from. -/
  baseSeed : UInt64
  /-- The number of the level handed out last. -/
  current : Option UInt32
  deriving DecidableEq, Repr

namespace Campaign

/-- A campaign that has handed out nothing. -/
def start (baseSeed : UInt64) : Campaign := ⟨baseSeed, none⟩

/-- The number after a level number; the greatest stays. -/
def following (n : UInt32) : UInt32 := if n = 4294967295 then n else n + 1

/-- Hands out a level by its number. -/
def level (c : Campaign) (mode : Mode) (number : UInt32) : Level × Campaign :=
  let l := Level.build c.baseSeed number mode
  (l, { c with current := some l.number })

/-- Hands out the level after the last one, or the first. -/
def next (c : Campaign) (mode : Mode) : Level × Campaign :=
  c.level mode ((c.current.map following).getD 1)

/-- Hands out a level by its number, or the next one if no number is given. -/
def request (c : Campaign) (mode : Mode) (number : Option UInt32) : Level × Campaign :=
  match number with
  | some n => c.level mode n
  | none => c.next mode

end Campaign

/-- A level completed with so many strawberries. -/
structure Completion where
  /-- The level number. -/
  level : UInt32
  /-- The strawberries held at the end. -/
  strawberries : Nat
  deriving DecidableEq, Repr

/-- The most strawberries with which a level was completed, if it was. -/
def bestOf (completions : List Completion) (level : UInt32) : Option Nat :=
  ((completions.filter (·.level == level)).map Completion.strawberries).max?

end Labyrinth
