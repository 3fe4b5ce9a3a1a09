import Questline.Script.Reading

/-!
# Trigger events

A trigger names an event of the world and its parameters.  Read as an effect it is
one thing to do: one call of the host, or one flag to set.  Nothing is done unless
the event is known and all its parameters are right.

* `Effect.ofTrigger`: the effect of a trigger.
* `Effect.events`: the events that are known.
-/

namespace Questline

open Json (Value Fields)

/-- A figure to bring into the world. -/
structure SpawnRequest where
  npc : String
  emoji : Option String
  name : Option String
  x : Binary64
  y : Binary64
  z : Binary64
  scale : Binary64
  deriving DecidableEq

/-- A change of the world that concerns nobody in particular. -/
inductive WorldEvent where
  | playMusic (track : String)
  | stopMusic
  | showStatus (message kind : String)
  | teleport (x y z : Binary64)
  | setTime (hour : Binary64)
  | setWeather (weather : String)
  deriving DecidableEq

/-- What a trigger does. -/
inductive Effect where
  | world (event : WorldEvent)
  | setFlag (name : String) (value : Scalar)
  | spawn (request : SpawnRequest)
  | remove (npc : String)
  deriving DecidableEq

namespace Effect

/-! ## Parameters -/

/-- The fault of a parameter that is not what its event needs. -/
def badParameter {α : Type} (name : String) (need : Requirement) : Except Fault α :=
  .error (.parameter name need)

/-- A text that is not empty. -/
def textParameter (name : String) : Value → Except Fault String
  | .string s => if s.isEmpty then badParameter name .nonEmptyString else .ok s
  | _ => badParameter name .nonEmptyString

/-- A text, or none. -/
def optionalParameter (name : String) : Value → Except Fault (Option String)
  | .null => .ok none
  | .string s => .ok (some s)
  | _ => badParameter name .stringIfProvided

/-- A number, made a floating-point value. -/
def numberParameter (name : String) : Value → Except Fault Binary64
  | .int i => floatOf (.int i)
  | .float x => .ok x
  | _ => badParameter name .number

/-- A boolean, a number or a text. -/
def scalarParameter (name : String) (v : Value) : Except Fault Scalar :=
  match Scalar.ofValue? v with
  | some s => .ok s
  | none => badParameter name .scalar

/-- An hour from zero up to, but not including, twenty-four. -/
def hourParameter (name : String) (v : Value) : Except Fault Binary64 := do
  let hour ← numberParameter name v
  if Binary64.zero.numLe hour && hour.numLt (.ofRatio false 24 1) then return hour
  else badParameter name .hourOfDay

/-! ## Events -/

/-- The effect of `playMusic`. -/
def readPlayMusic (params : Fields) : Except Fault Effect :=
  (fun track => .world (.playMusic track)) <$>
    textParameter "playMusic.trackPath" (Value.field params "trackPath")

/-- The effect of `setFlag`; a flag is set to true unless a value is given. -/
def readSetFlag (params : Fields) : Except Fault Effect := do
  let name ← textParameter "setFlag.flag" (Value.field params "flag")
  let value ← scalarParameter "setFlag.value" (fieldOr params "value" (.bool true))
  return .setFlag name value

/-- The effect of `spawnNPC`; the figure stands at the origin in its own size unless
told otherwise. -/
def readSpawn (params : Fields) : Except Fault Effect := do
  let npc ← textParameter "spawnNPC.npcId" (Value.field params "npcId")
  let emoji ← optionalParameter "spawnNPC.emoji" (Value.field params "emoji")
  let name ← optionalParameter "spawnNPC.name" (Value.field params "name")
  let x ← numberParameter "spawnNPC.x" (fieldOr params "x" (.int 0))
  let y ← numberParameter "spawnNPC.y" (fieldOr params "y" (.int 0))
  let z ← numberParameter "spawnNPC.z" (fieldOr params "z" (.int 0))
  let scale ← numberParameter "spawnNPC.scale" (fieldOr params "scale" (.int 1))
  return .spawn { npc, emoji, name, x, y, z, scale }

/-- The effect of `removeNPC`. -/
def readRemove (params : Fields) : Except Fault Effect :=
  .remove <$> textParameter "removeNPC.npcId" (Value.field params "npcId")

/-- The effect of `showStatus`; the message is an information unless it has a type. -/
def readShowStatus (params : Fields) : Except Fault Effect := do
  let message ← textParameter "showStatus.message" (Value.field params "message")
  let kind ← optionalParameter "showStatus.type" (Value.field params "type")
  return .world (.showStatus message (if kind.getD "" = "" then "info" else kind.getD ""))

/-- The effect of `teleport`. -/
def readTeleport (params : Fields) : Except Fault Effect := do
  let x ← numberParameter "teleport.x" (Value.field params "x")
  let y ← numberParameter "teleport.y" (Value.field params "y")
  let z ← numberParameter "teleport.z" (Value.field params "z")
  return .world (.teleport x y z)

/-- The effect of `setTime`. -/
def readSetTime (params : Fields) : Except Fault Effect :=
  (fun hour => .world (.setTime hour)) <$>
    hourParameter "setTime.hour" (Value.field params "hour")

/-- The effect of `setWeather`. -/
def readSetWeather (params : Fields) : Except Fault Effect :=
  (fun weather => .world (.setWeather weather)) <$>
    textParameter "setWeather.weather" (Value.field params "weather")

/-- The known events, each with the reader of its parameters. -/
def readers : List (String × (Fields → Except Fault Effect)) :=
  [("playMusic", readPlayMusic),
   ("stopMusic", fun _ => .ok (.world .stopMusic)),
   ("setFlag", readSetFlag),
   ("spawnNPC", readSpawn),
   ("removeNPC", readRemove),
   ("showStatus", readShowStatus),
   ("teleport", readTeleport),
   ("setTime", readSetTime),
   ("setWeather", readSetWeather)]

/-- The events that are known. -/
def events : List String :=
  ["playMusic", "stopMusic", "setFlag", "spawnNPC", "removeNPC", "showStatus", "teleport",
   "setTime", "setWeather"]

/-- The events that are known are those whose parameters can be read. -/
theorem events_eq : events = readers.map (·.1) := rfl

/-- Whether an event is known. -/
def isKnown (event : String) : Bool := events.contains event

/-- The effect of a trigger. -/
def ofTrigger (t : Trigger) : Except Fault Effect :=
  match readers.lookup t.event with
  | some read => read t.params
  | none => .error (.unknownEvent t.event)

end Effect

end Questline
