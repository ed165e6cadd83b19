import MetricAlerts.Text.Blank
import MetricAlerts.Text.Lowercase

/-!
# Slugs

The normal form of an identifier: lower case, with every other character than a letter, a digit or
a dash turned into an underscore, underscores never doubled and none at either end.
-/

namespace MetricAlerts.Text

def isSlugLetter (c : Char) : Bool :=
  (97 ≤ c.toNat && c.toNat ≤ 122) || (48 ≤ c.toNat && c.toNat ≤ 57) || c == '-'

def slugLetter (c : Char) : Char :=
  if isSlugLetter c then c else '_'

/-- Keeps one underscore of every run; `after` tells whether the last one kept was an underscore. -/
def collapse : Bool → List Char → List Char
  | _, [] => []
  | after, c :: cs =>
      if c = '_' then (if after then collapse true cs else '_' :: collapse true cs)
      else c :: collapse false cs

def trimUnderscores (cs : List Char) : List Char :=
  ((cs.dropWhile (· == '_')).reverse.dropWhile (· == '_')).reverse

def slugChars (cs : List Char) : List Char :=
  trimUnderscores (collapse false ((lowercase (trim cs)).map slugLetter))

def slug (s : String) : String :=
  String.ofList (slugChars s.toList)

example : slugChars [' ', 'A', ' ', '!', 'b', '_'] = ['a', '_', 'b'] := by decide
example : slugChars ['?', '!'] = [] := by decide

end MetricAlerts.Text
