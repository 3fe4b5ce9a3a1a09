/-!
# Entries in order

Named entries that keep the order in which their names first appeared: the fields
of an object, the flags of a store, the answers of a run.  Storing under a known
name replaces the value and leaves the entry where it is.
-/

namespace Questline

/-- Values under names, in order. -/
abbrev Entries (α : Type) := List (String × α)

namespace Entries

variable {α : Type}

/-- The value under a name. -/
def get? (es : Entries α) (name : String) : Option α :=
  (es.find? fun e => e.1 == name).map (·.2)

/-- Whether there is an entry of the name. -/
def has (es : Entries α) (name : String) : Bool := es.any fun e => e.1 == name

/-- Store a value: in the place of the entry of that name, or else at the end. -/
def put : Entries α → String → α → Entries α
  | [], name, a => [(name, a)]
  | e :: es, name, a => if e.1 == name then (name, a) :: es else e :: put es name a

/-- Remove the entry of a name. -/
def erase (es : Entries α) (name : String) : Entries α := es.filter fun e => e.1 != name

/-- The entries left when pairs are stored one after the other. -/
def ofPairs (pairs : List (String × α)) : Entries α :=
  pairs.foldl (fun es p => es.put p.1 p.2) []

/-- The names, in order. -/
def names (es : Entries α) : List String := es.map (·.1)

/-- An entry put in front of the first one with a greater name. -/
def insertSorted (e : String × α) : Entries α → Entries α
  | [] => [e]
  | f :: es => if e.1 < f.1 then e :: f :: es else f :: insertSorted e es

/-- The entries by the code points of their names. -/
def sorted (es : Entries α) : Entries α := es.foldr insertSorted []

end Entries

end Questline
