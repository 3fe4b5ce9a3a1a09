import Questline.Text.Blank

/-!
# Wrapped text

A text is set in lines of a given width.  Tabs become blanks up to the next column that
is a multiple of eight, every other white space of the ASCII set becomes one blank, and
lines are broken only at blanks.  Blanks at a break are dropped.  A word that is longer
than a line stands on a line of its own, unbroken.

* `Text.wrap`: the lines of a text.
* `Text.wrapChunks`: the same on runs of blanks and of other characters.
-/

namespace Questline.Text

/-! ## Chunks -/

/-- The distance between tab stops. -/
def tabStop : Nat := 8

/-- Replace tabs by blanks.  `column` counts the characters since the last line end. -/
def expandTabs : (column : Nat) → List Char → List Char
  | _, [] => []
  | column, '\t' :: cs =>
    List.replicate (tabStop - column % tabStop) ' ' ++
      expandTabs (column + (tabStop - column % tabStop)) cs
  | _, '\n' :: cs => '\n' :: expandTabs 0 cs
  | _, '\r' :: cs => '\r' :: expandTabs 0 cs
  | column, c :: cs => c :: expandTabs (column + 1) cs

/-- White space of the ASCII set. -/
def isAsciiSpace (c : Char) : Bool :=
  c == ' ' || c == '\t' || c == '\n' || c == '\x0b' || c == '\x0c' || c == '\r'

/-- A text in which blanks are the only white space of the ASCII set. -/
def plain (cs : List Char) : List Char :=
  (expandTabs 0 cs).map fun c => if isAsciiSpace c then ' ' else c

/-- The longest runs of blanks and of other characters. -/
def chunks : List Char → List (List Char)
  | [] => []
  | c :: cs =>
    match chunks cs with
    | (d :: run) :: rest =>
      if (c == ' ') == (d == ' ') then (c :: d :: run) :: rest else [c] :: (d :: run) :: rest
    | rest => [c] :: rest

/-! ## Lines -/

/-- The chunks that fit into a width, and the rest. -/
def takeFitting : (width : Nat) → List (List Char) → List (List Char) × List (List Char)
  | _, [] => ([], [])
  | width, c :: cs =>
    if c.length ≤ width then
      let (line, rest) := takeFitting (width - c.length) cs
      (c :: line, rest)
    else ([], c :: cs)

theorem length_takeFitting_snd (width : Nat) (cs : List (List Char)) :
    (takeFitting width cs).2.length ≤ cs.length := by
  induction cs generalizing width with
  | nil => simp [takeFitting]
  | cons c cs ih =>
    unfold takeFitting
    split
    · exact Nat.le_succ_of_le (ih _)
    · simp

/-- The chunks of a line that starts with the first chunk, and the rest. -/
def takeLine (width : Nat) (c : List Char) (cs : List (List Char)) :
    List (List Char) × List (List Char) :=
  if c.length ≤ width then
    let (line, rest) := takeFitting (width - c.length) cs
    (c :: line, rest)
  else ([c], cs)

theorem length_takeLine_snd (width : Nat) (c : List Char) (cs : List (List Char)) :
    (takeLine width c cs).2.length ≤ cs.length := by
  unfold takeLine
  split
  · exact length_takeFitting_snd _ _
  · exact Nat.le_refl _

/-- Chunks without a blank one at the end. -/
def dropBlankLast (line : List (List Char)) : List (List Char) :=
  if line.getLast?.any allBlank then line.dropLast else line

/-- Chunks without a blank one at the beginning. -/
def dropBlankFirst : List (List Char) → List (List Char)
  | [] => []
  | c :: cs => if allBlank c then cs else c :: cs

theorem length_dropBlankFirst (cs : List (List Char)) :
    (dropBlankFirst cs).length ≤ cs.length := by
  unfold dropBlankFirst
  split
  · exact Nat.le_refl _
  · split
    · simp
    · exact Nat.le_refl _

/-- The width of a line.  Lines after the first one are shorter by an indent. -/
def lineWidth (width indent : Nat) (first : Bool) : Nat := if first then width else width - indent

/-- What is left to be set in lines.  A blank chunk counts only in the first line. -/
def pending (first : Bool) (cs : List (List Char)) : List (List Char) :=
  if first then cs else dropBlankFirst cs

theorem length_pending (first : Bool) (cs : List (List Char)) :
    (pending first cs).length ≤ cs.length := by
  unfold pending
  split
  · exact Nat.le_refl _
  · exact length_dropBlankFirst cs

/-- The chunks of each line. -/
def wrapChunks (width indent : Nat) (first : Bool) (cs : List (List Char)) :
    List (List (List Char)) :=
  match _h : pending first cs with
  | [] => []
  | c :: rest =>
    let taken := takeLine (lineWidth width indent first) c rest
    let line := dropBlankLast taken.1
    if line.isEmpty then wrapChunks width indent first taken.2
    else line :: wrapChunks width indent false taken.2
termination_by cs.length
decreasing_by
  all_goals
    have h₁ := length_takeLine_snd (lineWidth width indent first) c rest
    have h₂ := length_pending first cs
    simp only [_h, List.length_cons] at h₂
    omega

/-- What stands before every line but the first. -/
def continuation : List Char := [' ', ' ']

/-- Lines of chunks as text. -/
def joinLines (indent : List Char) : List (List (List Char)) → List String
  | [] => [""]
  | line :: lines =>
    String.ofList line.flatten :: lines.map fun l => String.ofList (indent ++ l.flatten)

/-- The lines of a text.  Where there is no width to speak of, the text is left as it
is. -/
def wrap (width : Int) (indented : Bool) (s : String) : List String :=
  if s.isEmpty || width ≤ 0 then [s]
  else
    let indent := if indented then continuation else []
    joinLines indent (wrapChunks width.toNat indent.length true (chunks (plain s.toList)))

end Questline.Text
