/-!
# Paths

A path is a root and the names on the way down.  Empty names and single dots are
left out when a path is read, so `./a//b` is `a/b`; two dots are a name like any
other and are followed only when the path is looked up.

* `Path.ofString`, `Path.text`: reading and writing.
* `Path.join`: a path below another one; an absolute path stands for itself.
* `Path.name`, `Path.stem`, `Path.parent`: its parts.
-/

namespace Questline

/-- A path.  `slashes` counts the slashes of its root: none for a relative path,
and two only if the path is written with exactly two. -/
structure Path where
  slashes : Nat
  parts : List String
  deriving DecidableEq

namespace Path

/-- Whether the path starts at the root. -/
def isAbsolute (p : Path) : Bool := p.slashes != 0

/-- The pieces of a text between slashes. -/
def pieces : (cs : List Char) → List (List Char)
  | [] => [[]]
  | c :: cs =>
    if c == '/' then [] :: pieces cs
    else
      match pieces cs with
      | [] => [[c]]
      | p :: ps => (c :: p) :: ps

/-- The path that a text denotes. -/
def ofString (s : String) : Path :=
  let slashes := (s.toList.takeWhile (· == '/')).length
  { slashes := if slashes = 2 then 2 else min slashes 1
    parts := ((pieces s.toList).filter fun p => !p.isEmpty && p != ['.']).map String.ofList }

/-- The text of a path; a dot for the empty one. -/
def text (p : Path) : String :=
  if p.slashes = 0 ∧ p.parts = [] then "."
  else String.ofList (List.replicate p.slashes '/') ++ String.intercalate "/" p.parts

/-- The path `q` seen from `p`. -/
def join (p q : Path) : Path := if q.isAbsolute then q else ⟨p.slashes, p.parts ++ q.parts⟩

/-- The last name of a path; empty if there is none. -/
def name (p : Path) : String := p.parts.getLast?.getD ""

/-- A name without its suffix.  The suffix starts at the last dot, unless that is
the first or the last character. -/
def withoutSuffix (name : String) : String :=
  let cs := name.toList
  let after := (cs.reverse.takeWhile (· != '.')).length
  if after = 0 ∨ cs.length ≤ after + 1 then name
  else String.ofList (cs.take (cs.length - (after + 1)))

/-- The last name of a path without its suffix. -/
def stem (p : Path) : String := withoutSuffix p.name

/-- The path one name shorter; a root or an empty path is its own parent. -/
def parent (p : Path) : Path := ⟨p.slashes, p.parts.dropLast⟩

end Path

end Questline
