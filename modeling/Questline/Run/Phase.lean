/-!
# Phases of a run

The words that describe where a run stands: its phase, what it is busy with, and
what it waits for.
-/

namespace Questline

/-- The phase of a run.  A run that is paused or stopped is over; one that is paused
leaves what it changed in the world. -/
inductive Phase where
  | running
  | suspended
  | paused
  | stopped
  deriving DecidableEq

/-- The name of a phase. -/
def Phase.word : Phase → String
  | .running => "running"
  | .suspended => "suspended"
  | .paused => "paused"
  | .stopped => "stopped"

/-- Whether a run in this phase goes on. -/
def Phase.isActive : Phase → Bool
  | .running | .suspended => true
  | .paused | .stopped => false

/-- What a run is busy with. -/
inductive Activity where
  | idle
  | running
  | awaitingInput
  | awaitingExternal
  | advancing
  deriving DecidableEq

/-- The name of an activity. -/
def Activity.word : Activity → String
  | .idle => "idle"
  | .running => "running"
  | .awaitingInput => "awaiting_input"
  | .awaitingExternal => "awaiting_external"
  | .advancing => "advancing"

/-- What a suspended run waits for. -/
inductive WaitKind where
  | dialogue
  | choice
  | image
  | combat
  | link
  deriving DecidableEq

/-- The name of what is waited for. -/
def WaitKind.word : WaitKind → String
  | .dialogue => "dialogue"
  | .choice => "choice"
  | .image => "image"
  | .combat => "combat"
  | .link => "link"

/-- Whether the player ends the wait. -/
def WaitKind.isForPlayer : WaitKind → Bool
  | .dialogue | .choice | .image => true
  | .combat | .link => false

/-- What the run is busy with while it waits. -/
def WaitKind.activity (k : WaitKind) : Activity :=
  if k.isForPlayer then .awaitingInput else .awaitingExternal

end Questline
