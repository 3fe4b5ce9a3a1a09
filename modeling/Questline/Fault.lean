import Questline.Files.Tree
import Questline.Json.Reader
import Questline.Run.Phase
import Questline.Script.Node
import Questline.Text.Digit

/-!
# Faults

Everything that can go wrong, by its cause.  Data faults concern scripts, catalogs
and their files; the other faults arise while a script runs, while flags are stored,
or in the host.  `Fault.message` puts each of them into words.
-/

namespace Questline

/-! ## Requirements on data -/

/-- A part of the data that a requirement is about. -/
inductive Subject where
  | script (id : String)
  | node (id : String)
  | tutorials
  | tutorial (key : String)
  /-- A named part of another one. -/
  | part (whole : Subject) (name : String)
  /-- An item of a list. -/
  | item (list : Subject) (index : Nat)
  deriving DecidableEq

/-- The part in words. -/
def Subject.words : Subject → String
  | .script id => "script '" ++ id ++ "'"
  | .node id => "node '" ++ id ++ "'"
  | .tutorials => "tutorials"
  | .tutorial key => "tutorial '" ++ key ++ "'"
  | .part whole name => whole.words ++ " " ++ name
  | .item list index => list.words ++ "[" ++ natText index ++ "]"

/-- What a part of the data has to be. -/
inductive Requirement where
  | object
  | list
  | listOfStrings
  | identifier
  | nonEmptyString
  | stringIfProvided
  | positiveInteger
  | nonNegativeInteger
  | nonNegativeNumber
  | number
  | boolean
  | scalar
  | itemAction
  | checkKind
  | outputHandle
  | hourOfDay
  | messageText
  deriving DecidableEq

/-- The requirement in words. -/
def Requirement.words : Requirement → String
  | .object => "must be an object/dict."
  | .list => "must be a list."
  | .listOfStrings => "must be a list of strings."
  | .identifier => "must be a string or integer."
  | .nonEmptyString => "must be a non-empty string."
  | .stringIfProvided => "must be a string if provided."
  | .positiveInteger => "must be a positive integer."
  | .nonNegativeInteger => "must be a non-negative integer."
  | .nonNegativeNumber => "must be a non-negative number."
  | .number => "must be a number."
  | .boolean => "must be a boolean."
  | .scalar => "must be a boolean, number or string."
  | .itemAction => "must be 'give' or 'take'."
  | .checkKind => "must be 'hasFlag' or 'hasItem'."
  | .outputHandle => "must look like 'output_<n>'."
  | .hourOfDay => "must be between 0 and 24."
  | .messageText => "needs a text string."

/-! ## Data faults -/

/-- What is wrong with a script or a catalog, or with its file. -/
inductive DataFault where
  | fileMissing (path : Path)
  | fileUnreadable (path : Path)
  | notJson (path : Path) (fault : Json.ReadFault)
  | notObject (path : Path)
  | unmet (subject : Subject) (need : Requirement)
  | unknownKind (node : String) (kind : Json.Value)
  | repeatedNode (script node : String)
  | unknownSource (script node : String)
  | unknownTarget (script node : String)
  | noSuchOutput (script node : String) (kind : NodeKind) (output : Int)
  | repeatedOutput (script node : String) (output : Int)
  | noSuchOption (answer : Json.Value) (node : String) (options : Nat)
  | ambiguousEntry (script : String) (candidates : List String)
  | tutorialMissing (id : String) (path : Path)
  deriving DecidableEq

/-- Names in a row, or `none`. -/
def listed (separator : String) (names : List String) : String :=
  let s := separator.intercalate names
  if s.isEmpty then "none" else s

/-- The data fault in words. -/
def DataFault.message : DataFault → String
  | .fileMissing path => "Script file not found: " ++ path.text
  | .fileUnreadable path => "Unable to read script file: " ++ path.text
  | .notJson path fault => "Invalid JSON in " ++ path.text ++ ": " ++ fault.message
  | .notObject path => "Expected top-level object in " ++ path.text
  | .unmet subject need => subject.words ++ " " ++ need.words
  | .unknownKind node kind => "node '" ++ node ++ "' has unknown type " ++ Text.literal kind ++ "."
  | .repeatedNode script node =>
    "Script '" ++ script ++ "' defines node '" ++ node ++ "' more than once."
  | .unknownSource script node =>
    "Script '" ++ script ++ "' connection starts at unknown node '" ++ node ++ "'."
  | .unknownTarget script node =>
    "Script '" ++ script ++ "' connection targets unknown node '" ++ node ++ "'."
  | .noSuchOutput script node kind output =>
    "Script '" ++ script ++ "' node '" ++ node ++ "' (" ++ kind.word ++ ") has no output " ++
      intText output ++ "."
  | .repeatedOutput script node output =>
    "Script '" ++ script ++ "' node '" ++ node ++ "' output " ++ intText output ++
      " is connected more than once."
  | .noSuchOption answer node options =>
    "Choice index " ++ Text.display answer ++ " is invalid for node '" ++ node ++ "' with " ++
      natText options ++ " options."
  | .ambiguousEntry script candidates =>
    "Script '" ++ script ++ "' must have exactly one entry node (found: " ++
      listed ", " candidates ++ ")."
  | .tutorialMissing id path => "Tutorial '" ++ id ++ "' is not in " ++ path.text ++ "."

/-! ## Faults of a run -/

/-- Why a link leads nowhere. -/
inductive LinkFault where
  | notLoaded (target : String) (fault : DataFault)
  | writeCancelled (target : String)
  | writeFailed (target reason : String)
  deriving DecidableEq

/-- The link fault in words. -/
def LinkFault.message : LinkFault → String
  | .notLoaded target fault =>
    "Failed to load linked script '" ++ target ++ "': " ++ fault.message
  | .writeCancelled target =>
    "Durable write before linking to '" ++ target ++ "' was cancelled."
  | .writeFailed target reason =>
    "Durable write before linking to '" ++ target ++ "' failed: " ++ reason

/-- What the runner is asked to do and cannot do in its phase. -/
inductive RunnerFault where
  | notWaiting
  | waitingOn (kind : WaitKind)
  | choiceOpen
  | alreadyRunning (script : String)
  deriving DecidableEq

/-- The runner's fault in words. -/
def RunnerFault.message : RunnerFault → String
  | .notWaiting => "The runner is not waiting for the player."
  | .waitingOn kind => "The runner is waiting on " ++ kind.word ++ ", not on the player."
  | .choiceOpen => "A choice is waiting; advance needs a choice index."
  | .alreadyRunning script => "Script '" ++ script ++ "' is already running."

/-! ## Faults of the flag file -/

/-- What is wrong with the file that flags are kept in. -/
inductive FlagFault where
  | unreadable (path : Path) (fault : FileFault)
  | notJson (path : Path) (fault : Json.ReadFault)
  | notObject (path : Path)
  | notScalar (name : String) (path : Path) (value : Json.Value)
  | unwritable (path : Path) (fault : FileFault)
  deriving DecidableEq

/-- The flag fault in words. -/
def FlagFault.message : FlagFault → String
  | .unreadable path fault => "Unable to read flags from " ++ path.text ++ ": " ++ fault.message
  | .notJson path fault => "Unable to read flags from " ++ path.text ++ ": " ++ fault.message
  | .notObject path => "Flag file " ++ path.text ++ " must contain a JSON object."
  | .notScalar name path value =>
    "Flag '" ++ name ++ "' in " ++ path.text ++ " has unsupported value " ++ Text.literal value ++
      "."
  | .unwritable path fault => "Unable to write flags to " ++ path.text ++ ": " ++ fault.message

/-! ## Faults of numerals -/

/-- Why a number is not converted from decimal notation or to it. -/
inductive NumeralFault where
  /-- A text of digits that is too long, or in which some are no decimal digits. -/
  | unreadable (text : String)
  /-- A number with too many digits. -/
  | unwritable
  deriving DecidableEq

/-- What is said of a number with too many digits. -/
def NumeralFault.excess (count : String) : String :=
  "Exceeds the limit (" ++ natText maxDigits ++ " digits) for integer string conversion" ++ count ++
    "; use sys.set_int_max_str_digits() to increase the limit"

/-- The fault in words.  The digits of a text are counted up to the first that is no decimal
digit, and only if they are not too many is the text shown. -/
def NumeralFault.message : NumeralFault → String
  | .unreadable text =>
    let count := (text.toList.takeWhile fun c => (Text.decimalValue? c).isSome).length
    if maxDigits < count then excess (": value has " ++ natText count ++ " digits")
    else
      "invalid literal for int() with base 10: " ++
        String.ofList ((Text.quoted text).toList.take 200)
  | .unwritable => excess ""

/-! ## All faults -/

/-- Anything that can go wrong. -/
inductive Fault where
  | data (fault : DataFault)
  | link (fault : LinkFault)
  | runner (fault : RunnerFault)
  | flags (fault : FlagFault)
  /-- A trigger names an event that is not known. -/
  | unknownEvent (event : String)
  /-- Bytes of a file are no text. -/
  | undecodable (fault : Utf8.DecodeFault)
  /-- A file operation fails outside of loading and of the flag store. -/
  | file (fault : FileFault)
  /-- A parameter of a trigger is not what its event needs. -/
  | parameter (name : String) (need : Requirement)
  | emptyFlagName
  | flagNotScalar (name : String)
  /-- A choice is continued without an answer. -/
  | noAnswer (node : String)
  | badOutcome (outcome : Json.Value)
  /-- A number is not converted. -/
  | badNumeral (fault : NumeralFault)
  /-- An integer beyond the floating-point numbers. -/
  | tooLarge
  | noSuchNode (id : String)
  | noSuchTutorial (id : String)
  /-- A run goes on although its graph is gone. -/
  | graphGone
  /-- The host does not support a call that a script needs. -/
  | unsupported
  /-- The host is asked to present something of no known kind. -/
  | unpresentable (kind : String)
  /-- There is nothing to hand to the player. -/
  | nothingToShow
  /-- An answer that cannot be compared with a number of options. -/
  | uncomparable (answer : Json.Value)
  /-- An answer that lies among the options but is no integer. -/
  | noPosition (answer : Binary64)
  /-- The host fails. -/
  | host (text : String)
  /-- The host refuses a value. -/
  | hostValue (text : String)
  deriving DecidableEq

/-- The name of a value's type in messages. -/
def typeWord : Json.Value → String
  | .null => "NoneType"
  | .bool _ => "bool"
  | .int _ => "int"
  | .float _ => "float"
  | .string _ => "str"
  | .array _ => "list"
  | .object _ => "dict"

/-- The fault in words. -/
def Fault.message : Fault → String
  | .data fault => fault.message
  | .link fault => fault.message
  | .runner fault => fault.message
  | .flags fault => fault.message
  | .unknownEvent event => "Unknown trigger event '" ++ event ++ "'."
  | .undecodable fault => fault.message
  | .file fault => fault.message
  | .parameter name need => name ++ " " ++ need.words
  | .emptyFlagName => "Flag name must be a non-empty string."
  | .flagNotScalar name => "Flag '" ++ name ++ "' value must be a boolean, number or string."
  | .noAnswer node => "Choice node '" ++ node ++ "' needs a choice index to advance."
  | .badOutcome outcome =>
    "Battle outcome must be 'victory' or 'defeat', got " ++ Text.literal outcome ++ "."
  | .badNumeral fault => fault.message
  | .tooLarge => "int too large to convert to float"
  | .noSuchNode id => id
  | .noSuchTutorial id => id
  | .graphGone => ""
  | .unsupported => ""
  | .unpresentable kind => "Unsupported presentation kind " ++ Text.quoted kind
  | .nothingToShow => "'NoneType' object is not callable"
  | .uncomparable answer =>
    "'<=' not supported between instances of 'int' and '" ++ typeWord answer ++ "'"
  | .noPosition answer =>
    "list indices must be integers or slices, not " ++ typeWord (.float answer)
  | .host text => text
  | .hostValue text => text

end Questline
