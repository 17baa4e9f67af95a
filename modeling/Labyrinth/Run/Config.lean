/-!
# Settings of a run

A run has a pause after each paced instruction, a greatest depth of blocks, and perhaps
a bound on the events that wait for their reader. `Config.validate` accepts the settings
with which a run can do anything at all.
-/

namespace Labyrinth

/-- Settings of a run. -/
structure Config where
  /-- The pause after each paced instruction, in milliseconds. -/
  stepDelay : Nat
  /-- The greatest depth at which a block may be entered. -/
  maxDepth : Nat
  /-- The ordinary events that may wait for their reader; without it, any number. -/
  eventBuffer : Option Nat
  deriving DecidableEq, Repr

/-- Why a run cannot be set up. -/
inductive ConfigError where
  /-- No block could ever be entered. -/
  | zeroMaxDepth
  /-- No event could ever wait. -/
  | zeroEventBuffer
  /-- The system gave no thread, for this reason. -/
  | noThread (reason : String)
  deriving DecidableEq, Repr

/-- The message of a settings error. -/
def ConfigError.message : ConfigError → String
  | zeroMaxDepth => "max_depth must be at least 1"
  | zeroEventBuffer => "event_buffer must be at least 1 when set"
  | noThread reason => "thread spawn failed: " ++ reason

namespace Config

/-- The settings for a run that is watched. -/
def standard : Config := ⟨300, 64, none⟩

/-- The settings for a run without pauses. -/
def instant : Config := { standard with stepDelay := 0 }

/-- The settings, if a run can be set up with them. -/
def validate (c : Config) : Except ConfigError Config :=
  if c.maxDepth = 0 then .error .zeroMaxDepth
  else if c.eventBuffer = some 0 then .error .zeroEventBuffer
  else .ok c

/-- Settings are accepted exactly when a block can be entered and an event can wait. -/
theorem validate_eq_ok_iff {c : Config} :
    c.validate = .ok c ↔ 0 < c.maxDepth ∧ c.eventBuffer ≠ some 0 := by
  unfold validate
  split
  · simp; omega
  · split
    · simp_all
    · simp_all; omega

end Config

end Labyrinth
