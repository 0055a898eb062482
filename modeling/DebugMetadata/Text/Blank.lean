/-!
# White space

The Unicode property White_Space as closed ranges of code points, and texts
trimmed of it.  The list is the 25 characters that have had the property since
Unicode 6.3; characters that only look empty, such as U+200B, U+FEFF and
U+180E, do not have it.
-/

namespace DebugMetadata.Text

/-- Code points with the property White_Space, as ascending closed ranges. -/
def blankRanges : List (Nat × Nat) :=
  [(0x09, 0x0D), (0x20, 0x20), (0x85, 0x85), (0xA0, 0xA0), (0x1680, 0x1680),
   (0x2000, 0x200A), (0x2028, 0x2029), (0x202F, 0x202F), (0x205F, 0x205F),
   (0x3000, 0x3000)]

def isBlank (c : Char) : Bool :=
  blankRanges.any fun r => r.1 ≤ c.toNat && c.toNat ≤ r.2

/-- The text without the white space at its two ends. -/
def trim (s : List Char) : List Char :=
  ((s.dropWhile isBlank).reverse.dropWhile isBlank).reverse

/-- The word a setting is read from: trimmed, with the letters A to Z in lower
case.  Letters outside ASCII keep their case. -/
def settingWord (text : String) : String :=
  String.ofList ((trim text.toList).map Char.toLower)

end DebugMetadata.Text
