/-
Blank characters: what may stand around and between the words of a line without saying anything.
-/
namespace SceneScript.Text

/-- The ranges of the Unicode property `White_Space`, ascending, both ends included. -/
def blankRanges : List (Nat × Nat) :=
  [(0x09, 0x0D), (0x20, 0x20), (0x85, 0x85), (0xA0, 0xA0), (0x1680, 0x1680), (0x2000, 0x200A),
    (0x2028, 0x2029), (0x202F, 0x202F), (0x205F, 0x205F), (0x3000, 0x3000)]

/-- A character is blank iff it has the property `White_Space`. -/
def isBlank (c : Char) : Bool :=
  blankRanges.any fun r => r.1 ≤ c.toNat && c.toNat ≤ r.2

/-- The mark of a comment is not blank. -/
theorem isBlank_numberSign : isBlank '#' = false := by decide

/-- A line without the blanks before its first word and after its last one. -/
def trim (line : String) : String :=
  String.ofList ((line.toList.dropWhile isBlank).reverse.dropWhile isBlank).reverse

end SceneScript.Text
