import Questline.Script.Graph
import Questline.Text.Letter

/-!
# Templates

Texts may hold tokens, names in double braces.  A table fills them in: for each of its
entries in order, every token of the entry's name is replaced by its value.  Tokens
that no entry names stay as they are.

* `Template.fill`: a text filled in from a table.
* `Template.tokens`: the names of the tokens of a text.
* `Template.playerTable`: the table that describes a player.
* `Script.fill`: a script whose spoken texts are filled in.
-/

namespace Questline

/-- Values for the names of tokens, in order. -/
abbrev TemplateTable := Entries String

namespace Template

/-! ## Tokens -/

/-- What opens a token. -/
def opening : List Char := ['\x7b', '\x7b']

/-- What closes a token. -/
def closing : List Char := ['\x7d', '\x7d']

/-- Whether a character is a brace. -/
def isBrace (c : Char) : Bool := c == '\x7b' || c == '\x7d'

/-- The name of the token that the text begins with: everything up to the first
brace, if that is not empty and the token is closed there. -/
def tokenHead? (cs : List Char) : Option (List Char) :=
  match cs with
  | '\x7b' :: '\x7b' :: rest =>
    let name := rest.takeWhile fun c => !isBrace c
    if !name.isEmpty && closing.isPrefixOf (rest.drop name.length) then some name else none
  | _ => none

/-- The names of the tokens, the first `skip` characters being part of a token that
was found before. -/
def tokensFrom : (skip : Nat) → List Char → List (List Char)
  | _, [] => []
  | skip + 1, _ :: cs => tokensFrom skip cs
  | 0, c :: cs =>
    match tokenHead? (c :: cs) with
    | some name => name :: tokensFrom (name.length + 3) cs
    | none => tokensFrom 0 cs

/-- The names of the tokens of a text, in order. -/
def tokens (s : String) : List String := (tokensFrom 0 s.toList).map String.ofList

/-! ## Filling in -/

/-- Replace each occurrence of `old` by `new`, from left to right; the first `skip`
characters belong to the occurrence before. -/
def replaceFrom (old new : List Char) : (skip : Nat) → List Char → List Char
  | _, [] => []
  | skip + 1, _ :: cs => replaceFrom old new skip cs
  | 0, c :: cs =>
    if old.isPrefixOf (c :: cs) then new ++ replaceFrom old new (old.length - 1) cs
    else c :: replaceFrom old new 0 cs

/-- A name as a token. -/
def token (name : List Char) : List Char := opening ++ name ++ closing

/-- The characters of a text with every entry of the table filled in. -/
def fillList (table : TemplateTable) (cs : List Char) : List Char :=
  table.foldl (fun cs e => replaceFrom (token e.1.toList) e.2.toList 0 cs) cs

/-- A text with every entry of the table filled in. -/
def fill (table : TemplateTable) (s : String) : String :=
  String.ofList (fillList table s.toList)

/-! ## The player -/

/-- What is known of the player. -/
structure Player where
  companion : String := "rat"
  race : String := "unknown"
  deriving DecidableEq

/-- The name that a companion's id stands for: its first word with a capital, or the
id itself if that word is empty. -/
def companionName (id : String) : String :=
  let word := String.ofList (id.toList.takeWhile (· != '_'))
  if word.isEmpty then id else Text.capitalizeFirst word

/-- The table that describes a player. -/
def playerTable (p : Player) : TemplateTable :=
  [("companion_id", p.companion),
   ("companion_name", companionName p.companion),
   ("player_race", Text.capitalizeFirst p.race)]

end Template

/-! ## Scripts -/

/-- What a node does, its spoken texts filled in: the text, the speaker and the
character of a dialogue and the question of a choice. -/
def NodeBody.fill (table : TemplateTable) : NodeBody → NodeBody
  | .dialogue d => .dialogue { d with
      text := Template.fill table d.text
      speaker := Template.fill table d.speaker
      character := d.character.map (Template.fill table) }
  | .choice c => .choice { c with question := Template.fill table c.question }
  | body => body

/-- A node with its spoken texts filled in. -/
def Node.fill (table : TemplateTable) (n : Node) : Node := { n with body := n.body.fill table }

/-- The texts of a node that tables are filled into. -/
def Node.templates (n : Node) : List String :=
  match n.body with
  | .dialogue d => [d.text, d.speaker] ++ d.character.toList
  | .choice c => [c.question]
  | _ => []

/-- A script with the spoken texts of its nodes filled in. -/
def Script.fill (table : TemplateTable) (s : Script) : Script :=
  { s with nodes := s.nodes.map (Node.fill table) }

/-- The number of texts in a script that a table changes. -/
def Script.changes (table : TemplateTable) (s : Script) : Nat :=
  (s.nodes.flatMap Node.templates).countP fun text => Template.fill table text != text

/-- A graph with the spoken texts of its nodes filled in. -/
def Graph.fill (table : TemplateTable) (g : Graph) : Graph :=
  { script := g.script.fill table, entry := g.entry.fill table }

end Questline
