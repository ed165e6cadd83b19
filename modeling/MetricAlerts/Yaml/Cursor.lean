/-!
# Cursors

A place in a YAML text, with the line and column that indentation depends on. Two characters that
make up one line break are passed together.
-/

namespace MetricAlerts.Yaml

def isBreak (c : Char) : Bool :=
  c == '\n' || c == '\r' || c.toNat == 0x85 || c.toNat == 0x2028 || c.toNat == 0x2029

def isSpace (c : Char) : Bool :=
  c == ' ' || c == '\t'

/-- Whether a text is over or goes on with a blank or a line break. -/
def startsGap : List Char → Bool
  | [] => true
  | c :: _ => isSpace c || isBreak c

structure Cursor where
  rest : List Char
  line : Nat
  column : Nat
  /-- Characters passed so far. -/
  index : Nat

namespace Cursor

def start (cs : List Char) : Cursor := ⟨cs, 0, 0, 0⟩

/-- Passes a character that does not break the line. -/
def skip (cursor : Cursor) : Cursor :=
  { cursor with
    rest := cursor.rest.drop 1
    column := cursor.column + 1
    index := cursor.index + 1 }

def skipMany (cursor : Cursor) (count : Nat) : Cursor :=
  { cursor with
    rest := cursor.rest.drop count
    column := cursor.column + count
    index := cursor.index + count }

/-- Passes a line break. -/
def skipLine (cursor : Cursor) : Cursor :=
  let width := match cursor.rest with
    | '\r' :: '\n' :: _ => 2
    | _ => 1
  ⟨cursor.rest.drop width, cursor.line + 1, 0, cursor.index + width⟩

/-- What a line break reads as: the two separators of Unicode stay, all others are alike. -/
def breakValue (c : Char) : Char :=
  if c.toNat = 0x2028 ∨ c.toNat = 0x2029 then c else '\n'

/-- Three dashes or three points that take up a line of their own. -/
def atDocumentMark (cursor : Cursor) : Bool :=
  cursor.column == 0 && match cursor.rest with
    | '-' :: '-' :: '-' :: rest => startsGap rest
    | '.' :: '.' :: '.' :: rest => startsGap rest
    | _ => false

/-- Passes everything up to the next line break. -/
def skipComment (cursor : Cursor) : Cursor :=
  cursor.skipMany (cursor.rest.takeWhile fun c => !isBreak c).length

end Cursor

/-- Characters that a text may consist of. -/
def isAllowed (c : Char) : Bool :=
  let n := c.toNat
  n == 0x09 || n == 0x0A || n == 0x0D || (0x20 ≤ n && n ≤ 0x7E) || n == 0x85 ||
    (0xA0 ≤ n && n ≤ 0xFFFD) || 0x10000 ≤ n

end MetricAlerts.Yaml
