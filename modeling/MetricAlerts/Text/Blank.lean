/-!
# Blank characters

The characters that count as white space wherever this library skips or trims it: the Unicode
property `White_Space`, which is wider than the ASCII blanks.
-/

namespace MetricAlerts.Text

def isBlank (c : Char) : Bool :=
  let n := c.toNat
  (9 ≤ n && n ≤ 13) || n == 0x20 || n == 0x85 || n == 0xA0 || n == 0x1680 ||
    (0x2000 ≤ n && n ≤ 0x200A) || n == 0x2028 || n == 0x2029 || n == 0x202F ||
    n == 0x205F || n == 0x3000

def dropBlanks (cs : List Char) : List Char :=
  cs.dropWhile isBlank

def dropTrailingBlanks (cs : List Char) : List Char :=
  (dropBlanks cs.reverse).reverse

def trim (cs : List Char) : List Char :=
  dropTrailingBlanks (dropBlanks cs)

/-- A text of blanks only. -/
def allBlank (s : String) : Bool :=
  s.toList.all isBlank

end MetricAlerts.Text
