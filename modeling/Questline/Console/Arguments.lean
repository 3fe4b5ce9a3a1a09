import Questline.Entries
import Questline.Text.Digit

/-!
# Arguments

The arguments of a command are words and options.  A form says which options a command
has and which words it needs.  Options begin with a dash; they may be cut short as long
as it stays clear which one is meant, and a value may be attached with an equals sign.
After two dashes everything is a word.

The rules are those that such parsers had before release 3.11.9.  Later ones differ in two
points: letters after the one of a help option need not be options, and two dashes stay the
value of an option that they are attached to.

* `Form.classify`: each argument as a word or an option.
* `Form.fill`: what the arguments give, or why they are refused.
-/

namespace Questline.Arguments

/-! ## Forms -/

/-- What an option does: show help, or hold a value. -/
inductive OptionUse where
  | help
  | value
  deriving DecidableEq

/-- How many words a place takes: one, at least one, or all that follows, options
included. -/
inductive Place where
  | one
  | several
  | remainder
  deriving DecidableEq

/-- The options and places of a command. -/
structure Form where
  options : Entries OptionUse
  places : List Place

/-- Why arguments are refused. -/
inductive Refusal where
  /-- Help is asked for. -/
  | help
  /-- They do not fit the form. -/
  | misfit
  deriving DecidableEq

/-- What arguments give: the values of options, the last one counting, the words of each
place, and whether anything was left over. -/
structure Filling where
  values : Entries String := []
  words : List (List String) := []
  leftOver : Bool := false
  deriving DecidableEq

/-! ## Classes of arguments -/

/-- An argument by its class. -/
inductive Argument where
  | word (s : String)
  /-- An option with the value attached to it. -/
  | option (name : String) (attached : Option String)
  /-- What looks like an option and is none. -/
  | unknown
  /-- The two dashes before which options end. -/
  | separator
  deriving DecidableEq

/-- An argument as it was given. -/
abbrev Given := Argument × String

/-- Whether an argument is a word. -/
def Argument.isWord : Argument → Bool
  | .word _ => true
  | _ => false

/-- Whether an argument may stand in a place among words. -/
def Argument.isPlain : Argument → Bool
  | .word _ | .separator => true
  | _ => false

/-- What two dashes look like. -/
def dashes : String := "--"

/-- A text up to the first equals sign and what follows it. -/
def splitEquals (cs : List Char) : String × Option String :=
  let head := cs.takeWhile (· != '=')
  (String.ofList head,
    if head.length < cs.length then some (String.ofList (cs.drop (head.length + 1))) else none)

/-- Decimal digits. -/
def allDigits (cs : List Char) : Bool := cs.all fun c => (Text.decimalValue? c).isSome

/-- A text without the newline at its end. -/
def withoutNewline (cs : List Char) : List Char :=
  if cs.getLast? = some '\n' then cs.dropLast else cs

/-- Whether the text is a negative number: a dash and digits, with a point perhaps.  It
may end a line. -/
def isNegativeNumber (cs : List Char) : Bool :=
  match withoutNewline cs with
  | '-' :: rest =>
    let whole := rest.takeWhile (· != '.')
    let fraction := rest.drop (whole.length + 1)
    if whole.length < rest.length then
      allDigits whole && !fraction.isEmpty && allDigits fraction
    else !rest.isEmpty && allDigits rest
  | _ => false

namespace Form

/-- The options that a shortened name with two dashes may stand for. -/
def longCandidates (f : Form) (name : String) : List String :=
  f.options.names.filter fun o => name.toList.isPrefixOf o.toList

/-- What an argument with one dash may stand for: an option of one letter with something
after it, or a shortened name. -/
def shortCandidates (f : Form) (cs : List Char) : List Argument :=
  f.options.names.filterMap fun o =>
    if o.toList = cs.take 2 then some (.option o (some (String.ofList (cs.drop 2))))
    else if cs.isPrefixOf o.toList then some (.option o none)
    else none

/-- What an argument that is no option as it stands may stand for. -/
def candidates (f : Form) (cs : List Char) : List Argument :=
  match cs with
  | '-' :: '-' :: _ =>
    let (name, attached) := splitEquals cs
    (f.longCandidates name).map fun o => .option o attached
  | _ => f.shortCandidates cs

/-- The class of an argument before two dashes; none if it is unclear which option is
meant. -/
def classifyOne (f : Form) (s : String) : Option Argument :=
  let cs := s.toList
  if cs.head? != some '-' then some (.word s)
  else if f.options.has s then some (.option s none)
  else if cs.length = 1 then some (.word s)
  else
    let (name, attached) := splitEquals cs
    if attached.isSome && f.options.has name then some (.option name attached)
    else
      match f.candidates cs with
      | [a] => some a
      | [] => if isNegativeNumber cs || cs.contains ' ' then some (.word s) else some .unknown
      | _ => none

/-- The classes of arguments. -/
def classify (f : Form) : List String → Option (List Given)
  | [] => some []
  | s :: rest =>
    if s = dashes then some ((.separator, s) :: rest.map fun s => (.word s, s))
    else
      match f.classifyOne s with
      | some a => (f.classify rest).map ((a, s) :: ·)
      | none => none

end Form

/-! ## Places -/

/-- The number of arguments that a place takes: a word with the separators around it, and
what may follow it there.  None if there is no word. -/
def Place.extent? (p : Place) (args : List Given) : Option Nat :=
  let before := (args.takeWhile (·.1 == .separator)).length
  match args.drop before with
  | [] => none
  | (a, _) :: rest =>
    if a.isWord then
      match p with
      | .one => some (before + 1 + (rest.takeWhile (·.1 == .separator)).length)
      | .several => some (before + 1 + (rest.takeWhile (·.1.isPlain)).length)
      | .remainder => some args.length
    else none

/-- The words of what a place takes.  The first two dashes are left out, whether or not
options end there; only what follows a remainder's first word is kept as it is. -/
def Place.words (p : Place) (taken : List Given) : List String :=
  match p with
  | .one | .several => (taken.map (·.2)).erase dashes
  | .remainder => taken.map (·.2)

/-- What a place takes, and the rest. -/
def Place.take (p : Place) (args : List Given) : Option (List String × List Given) :=
  (p.extent? args).map fun n => (p.words (args.take n), args.drop n)

/-- What several places take, if every one of them gets something. -/
def takeAll : List Place → List Given → Option (List (List String) × List Given)
  | [], args => some ([], args)
  | p :: ps, args =>
    match p.take args with
    | none => none
    | some (words, rest) => (takeAll ps rest).map fun r => (words :: r.1, r.2)

/-- What as many of the places as possible take. -/
def takeMost (places : List Place) (args : List Given) : List (List String) × List Given :=
  match (List.range (places.length + 1)).reverse.findSome? fun n => takeAll (places.take n) args with
  | some r => r
  | none => ([], args)

/-! ## Filling a form -/

/-- The state of a form while it is filled. -/
structure Progress where
  filling : Filling := {}
  places : List Place
  deriving DecidableEq

/-- Let places take words. -/
def Progress.place (p : Progress) (args : List Given) : Progress × List Given :=
  let (words, rest) := takeMost p.places args
  ({ filling := { p.filling with words := p.filling.words ++ words }
     places := p.places.drop words.length }, rest)

/-- Something is left over. -/
def Progress.leave (p : Progress) : Progress :=
  { p with filling := { p.filling with leftOver := true } }

/-- An option gets its value.  Of two dashes nothing is left, so that the option is as if
it had not been given. -/
def Progress.store (p : Progress) (name value : String) : Progress :=
  let values :=
    if value = dashes then p.filling.values.erase name else p.filling.values.put name value
  { p with filling := { p.filling with values } }

namespace Form

/-- The letters after the one of a help option are options of one letter too: help if all
of them ask for it. -/
def tailRefusal (f : Form) (letters : List Char) : Refusal :=
  if letters.all fun c => f.options.get? (String.ofList ['-', c]) == some .help then .help
  else .misfit

/-- What an option makes of the arguments after it. -/
def option (f : Form) (p : Progress) (name : String) (attached : Option String)
    (rest : List Given) : Except Refusal (Progress × List Given) :=
  match f.options.get? name, attached with
  | none, _ => .ok (p.leave, rest)
  | some .help, none => .error .help
  | some .help, some s =>
    if name.length = 2 && !s.isEmpty then .error (f.tailRefusal s.toList) else .error .misfit
  | some .value, some s => .ok (p.store name s, rest)
  | some .value, none =>
    match rest with
    | (.word s, _) :: rest => .ok (p.store name s, rest)
    | _ => .error .misfit

/-- Go through arguments, of which there are at most `bound`. -/
def go (f : Form) : (bound : Nat) → Progress → List Given → Except Refusal Progress
  | 0, p, _ => .ok p
  | bound + 1, p, args =>
    match args with
    | [] => .ok p
    | (.option name attached, _) :: rest =>
      match f.option p name attached rest with
      | .error e => .error e
      | .ok (p, rest) => f.go bound p rest
    | (.unknown, _) :: rest => f.go bound p.leave rest
    | (.word s, t) :: rest =>
      let (p, rest') := p.place ((.word s, t) :: rest)
      if rest'.length ≤ rest.length then f.go bound p rest'
      else f.go bound p.leave (rest.dropWhile (·.1.isPlain))
    | (.separator, t) :: rest =>
      let (p, rest') := p.place ((.separator, t) :: rest)
      if rest'.length ≤ rest.length then f.go bound p rest'
      else f.go bound p.leave (rest.dropWhile (·.1.isPlain))

/-- What arguments give.  Every place has to get something. -/
def fill (f : Form) (args : List String) : Except Refusal Filling :=
  match f.classify args with
  | none => .error .misfit
  | some given =>
    match f.go given.length { places := f.places } given with
    | .error e => .error e
    | .ok p => if p.places.isEmpty then .ok p.filling else .error .misfit

end Form

end Questline.Arguments
