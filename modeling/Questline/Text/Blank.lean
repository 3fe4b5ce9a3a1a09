/-!
# Blank characters

White space as the Unicode property counts it, together with the four ASCII
separators from `U+001C` to `U+001F`.  Texts are trimmed of these characters.
-/

namespace Questline.Text

/-- The ranges of blank characters. -/
def blankRanges : List (Nat × Nat) :=
  [(9, 0xD), (0x1C, 0x20), (0x85, 0x85), (0xA0, 0xA0), (0x1680, 0x1680), (0x2000, 0x200A),
   (0x2028, 0x2029), (0x202F, 0x202F), (0x205F, 0x205F), (0x3000, 0x3000)]

/-- Whether the character is blank. -/
def isBlank (c : Char) : Bool :=
  blankRanges.any fun r => r.1 ≤ c.toNat && c.toNat ≤ r.2

/-- The list without blank characters at either end. -/
def trimList (cs : List Char) : List Char :=
  ((cs.dropWhile isBlank).reverse.dropWhile isBlank).reverse

/-- The text without blank characters at either end. -/
def trim (s : String) : String := String.ofList (trimList s.toList)

/-- Whether the text holds blank characters only. -/
def allBlank (cs : List Char) : Bool := cs.all isBlank

end Questline.Text
