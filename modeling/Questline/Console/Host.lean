import Questline.Console.Render

/-!
# The console as a host

The console shows what it is given, keeps an inventory and the figures that are there,
and collects warnings.  A battle is left pending until its outcome is known.  It has no
timers, and nothing is ever being written behind its back.

* `Console.give`, `Console.take`, `Console.held`: the inventory.  It lists what is held,
  never an amount of zero after a taking.
* `Console.answer`: the console's part in a run.
-/

namespace Questline

/-- The state of a console. -/
structure Console where
  player : Template.Player := {}
  debug : Bool := false
  inventory : Entries Number := []
  npcs : Entries SpawnRequest := []
  warnings : List Console.Notice := []
  lastChoice : Option ChoiceCard := none
  battle : Option BattleHandle := none
  opponent : Option Json.Fields := none

namespace Console

/-- Show a card.  The last choice is remembered. -/
def present (c : Console) (card : Card) : Console × String × Except Fault Unit :=
  let c := match card with
    | .choice choice => { c with lastChoice := some choice }
    | _ => c
  match cardText c.debug card with
  | .ok shown => (c, shown, .ok ())
  | .error f => (c, "", .error f)

/-- Show something that is said to be of a kind.  Only cards can be shown. -/
def presentAs (c : Console) (kind : String) :
    Option Card → Console × String × Except Fault Unit
  | some card => c.present card
  | none => (c, "", .error (.unpresentable kind))

/-- The number of items that are held. -/
def held (c : Console) (item : String) : Number := (c.inventory.get? item).getD (.int 0)

/-- Hand out items. -/
def give (c : Console) (item : String) (amount : Number) : Console × String × Except Fault Unit :=
  match inRange ((c.held item).add? amount) with
  | .error f => (c, "", .error f)
  | .ok total => ({ c with inventory := c.inventory.put item total }, itemText "+" amount item, .ok ())

/-- Keep what is left of an item; what is used up is not listed. -/
def keep (inventory : Entries Number) (item : String) (rest : Number) : Entries Number :=
  if rest.agrees (.int 0) then inventory.erase item else inventory.put item rest

/-- Take items away, if there are as many. -/
def take (c : Console) (item : String) (amount : Number) : Console × String × Except Fault Bool :=
  if (c.held item).less amount then (c, "", .ok false)
  else
    match inRange ((c.held item).sub? amount) with
    | .error f => (c, "", .error f)
    | .ok rest =>
      ({ c with inventory := keep c.inventory item rest }, itemText "-" amount item, .ok true)

/-- Begin a battle. -/
def startBattle (c : Console) (opponent : Json.Fields) (battle : BattleHandle) :
    Console × String :=
  ({ c with opponent := some opponent, battle := some battle }, battleText opponent)

/-- End the pending battle. -/
def endBattle (c : Console) : Console × Option BattleHandle :=
  ({ c with opponent := none, battle := none }, c.battle)

/-- Let a figure appear. -/
def spawn (c : Console) (request : SpawnRequest) : Console × String :=
  ({ c with npcs := c.npcs.put request.npc request }, spawnText request)

/-- Let a figure leave, if it is there. -/
def remove (c : Console) (npc : String) : Console × String :=
  if c.npcs.has npc then ({ c with npcs := c.npcs.erase npc }, leaveText npc) else (c, "")

/-- Collect a warning; it is shown at once only with debugging on. -/
def warn (c : Console) (notice : Notice) : Console × String :=
  ({ c with warnings := c.warnings ++ [notice] }, if c.debug then noticesText [notice] else "")

/-- A state and what is shown, with an answer that is always the same. -/
def answering {α : Type} (r : Console × String) (answer : α) : Console × String × Except Fault α :=
  (r.1, r.2, .ok answer)

/-- The console after a call, what it shows, and its answer. -/
def answer (c : Console) : (call : Call) → Console × String × Except Fault call.Reply
  | .present card => c.present card
  | .startTimer _ _ => (c, "", .ok false)
  | .cancelTimer _ => (c, "", .ok ())
  | .callSoon _ => (c, "", .ok ())
  | .giveItem item amount => c.give item amount
  | .takeItem item amount => c.take item amount
  | .countItem item => (c, "", .ok (c.held item))
  | .startBattle opponent battle => answering (c.startBattle opponent battle) ()
  | .spawn request => answering (c.spawn request) request.npc
  | .remove npc => answering (c.remove npc) ()
  | .world event => (c, worldText event, .ok ())
  | .templateTable => (c, "", .ok (Template.playerTable c.player))
  | .reportWarning warning => answering (c.warn ⟨warning.code, warning.message⟩) ()
  | .complete _ ledger =>
    (c, if c.debug && !ledger.isEmpty then ledgerText ledger else "", .ok .plain)

end Console

end Questline
