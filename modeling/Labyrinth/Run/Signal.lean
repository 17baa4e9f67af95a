/-!
# Stop signals

A stop signal is held through handles: a handle may be copied, and all copies of it see
the same signal. A signal that has been raised stays raised.
-/

namespace Labyrinth

/-- Some stop signals and the handles on them. -/
structure SignalBoard where
  /-- Whether each signal has been raised. -/
  raised : List Bool
  /-- The signal that each handle is on. -/
  handles : List Nat
  deriving DecidableEq, Repr

namespace SignalBoard

/-- No signals. -/
def empty : SignalBoard := ⟨[], []⟩

/-- A handle on a new signal. -/
def fresh (b : SignalBoard) : SignalBoard :=
  ⟨b.raised ++ [false], b.handles ++ [b.raised.length]⟩

/-- The signal that a handle is on. -/
def signal (b : SignalBoard) (handle : Nat) : Nat := b.handles.getD handle b.raised.length

/-- One more handle on the signal of a handle. -/
def copy (b : SignalBoard) (handle : Nat) : SignalBoard :=
  { b with handles := b.handles ++ [b.signal handle] }

/-- Raises the signal of a handle. -/
def raise (b : SignalBoard) (handle : Nat) : SignalBoard :=
  { b with raised := b.raised.set (b.signal handle) true }

/-- What every handle sees. -/
def view (b : SignalBoard) : List Bool := b.handles.map (fun s => b.raised.getD s false)

end SignalBoard

end Labyrinth
