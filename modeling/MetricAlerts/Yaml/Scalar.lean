import MetricAlerts.Yaml.Cursor
import MetricAlerts.Document.Json

/-!
# Scalars

The three kinds of scalars: plain, quoted and block. In all of them line breaks fold: a single one
between two lines of text becomes a space, and of several the first one goes away.
-/

namespace MetricAlerts.Yaml

/-- Blanks and line breaks between two words of a scalar. -/
structure Gap where
  /-- Blanks before the first line break. -/
  spaces : List Char
  breaks : List Char
deriving DecidableEq

namespace Gap

def none : Gap := ⟨[], []⟩

/-- What is left of a gap once it is folded. -/
def folded (gap : Gap) : List Char :=
  match gap.breaks with
  | [] => gap.spaces
  | [c] => if c = '\n' then [' '] else [c]
  | c :: more => if c = '\n' then more else c :: more

/-- Passes a gap. A tab inside the indentation, which is `indent` wide, is an error. `broken` tells
that a line break came before. -/
def read (indent : Nat) : Nat → (broken : Bool) → Gap → Cursor → Option (Gap × Cursor)
  | 0, _, gap, cursor => some (gap, cursor)
  | fuel + 1, broken, gap, cursor =>
      match cursor.rest with
      | [] => some (gap, cursor)
      | c :: _ =>
          if isSpace c then
            if broken && cursor.column < indent && c == '\t' then .none
            else if broken then read indent fuel true gap cursor.skip
            else read indent fuel false { gap with spaces := gap.spaces ++ [c] } cursor.skip
          else if isBreak c then
            read indent fuel true
              { gap with breaks := gap.breaks ++ [Cursor.breakValue c] } cursor.skipLine
          else some (gap, cursor)

end Gap

/-- A scalar as it was read, and whether a line break came last. -/
structure ScannedScalar where
  chars : List Char
  cursor : Cursor
  broken : Bool

namespace Plain

def isFlowIndicator (c : Char) : Bool :=
  c == ',' || c == '[' || c == ']' || c == '{' || c == '}'

/-- The rest of a word. Inside brackets a colon in front of a bracket, a comma or a question mark is
an error. -/
def word (inFlow : Bool) : Nat → List Char → Cursor → Option (List Char × Cursor)
  | 0, read, cursor => some (read, cursor)
  | fuel + 1, read, cursor =>
      match cursor.rest with
      | [] => some (read, cursor)
      | c :: rest =>
          let clash := match rest with
            | next :: _ => isFlowIndicator next || next == '?'
            | [] => false
          if isSpace c || isBreak c then some (read, cursor)
          else if inFlow && c == ':' && clash then none
          else if c == ':' && startsGap rest then some (read, cursor)
          else if inFlow && isFlowIndicator c then some (read, cursor)
          else word inFlow fuel (c :: read) cursor.skip

/-- The rest of a plain scalar; `read` is what came before, backwards. -/
def scan (inFlow : Bool) (indent : Nat) :
    Nat → (read : List Char) → Gap → Cursor → Option ScannedScalar
  | 0, read, _, cursor => some ⟨read.reverse, cursor, false⟩
  | fuel + 1, read, gap, cursor =>
      let broken := !gap.breaks.isEmpty
      if cursor.atDocumentMark || cursor.rest.head? == some '#' then
        some ⟨read.reverse, cursor, broken⟩
      else do
        let (letters, next) ← word inFlow cursor.rest.length [] cursor
        if letters.isEmpty then some ⟨read.reverse, cursor, broken⟩
        else
          let read := letters ++ gap.folded.reverse ++ read
          if next.rest.isEmpty || !startsGap next.rest then some ⟨read.reverse, next, false⟩
          else
            let (gap, next) ← Gap.read indent next.rest.length false .none next
            if !inFlow && next.column < indent then
              some ⟨read.reverse, next, !gap.breaks.isEmpty⟩
            else scan inFlow indent fuel read gap next

end Plain

namespace Quoted

def simpleEscape? (c : Char) : Option Char :=
  match c with
  | '0' => some (Char.ofNat 0)
  | 'a' => some (Char.ofNat 7)
  | 'b' => some (Char.ofNat 8)
  | 't' | '\t' => some '\t'
  | 'n' => some '\n'
  | 'v' => some (Char.ofNat 11)
  | 'f' => some (Char.ofNat 12)
  | 'r' => some '\r'
  | 'e' => some (Char.ofNat 27)
  | ' ' => some ' '
  | '"' => some '"'
  | '/' => some '/'
  | '\\' => some '\\'
  | 'N' => some (Char.ofNat 0x85)
  | '_' => some (Char.ofNat 0xA0)
  | 'L' => some (Char.ofNat 0x2028)
  | 'P' => some (Char.ofNat 0x2029)
  | _ => none

def codeLength? (c : Char) : Option Nat :=
  match c with
  | 'x' => some 2
  | 'u' => some 4
  | 'U' => some 8
  | _ => none

/-- The character with the given code, which must not be one half of a pair. -/
def charOfHex? (digits : List Char) : Option Char := do
  let values ← digits.mapM Document.Json.hexValue?
  let code := values.foldl (fun code value => 16 * code + value) 0
  if (0xD800 ≤ code ∧ code ≤ 0xDFFF) ∨ 0x10FFFF < code then none else some (Char.ofNat code)

/-- An escaped character after its backslash. -/
def escape (cursor : Cursor) : Option (Char × Cursor) :=
  match cursor.rest with
  | [] => none
  | c :: rest =>
      match codeLength? c with
      | some length =>
          if rest.length < length then none
          else do
            let value ← charOfHex? (rest.take length)
            return (value, cursor.skipMany (length + 1))
      | none => (simpleEscape? c).map fun value => (value, cursor.skip)

/-- The rest of a run of characters without blanks or line breaks. A line break behind a backslash
ends the run too, which the last part of the answer tells. -/
def run (double : Bool) : Nat → List Char → Cursor → Option (List Char × Cursor × Bool)
  | 0, _, _ => none
  | fuel + 1, read, cursor =>
      match cursor.rest with
      | [] => some (read, cursor, false)
      | c :: rest =>
          if isSpace c || isBreak c then some (read, cursor, false)
          else if !double && c == '\'' && rest.head? == some '\'' then
            run double fuel ('\'' :: read) (cursor.skipMany 2)
          else if c == (if double then '"' else '\'') then some (read, cursor, false)
          else if double && c == '\\' then
            if (rest.head?.map isBreak).getD false then some (read, cursor.skip.skipLine, true)
            else do
              let (value, next) ← escape cursor.skip
              run double fuel (value :: read) next
          else run double fuel (c :: read) cursor.skip

/-- The rest of a quoted scalar; `read` is what came before, backwards. -/
def scan (double : Bool) : Nat → (read : List Char) → Cursor → Option ScannedScalar
  | 0, _, _ => none
  | fuel + 1, read, cursor =>
      if cursor.atDocumentMark || cursor.rest.isEmpty then none
      else do
        let (read, next, escaped) ← run double (cursor.rest.length + 1) read cursor
        if !escaped && next.rest.head? == some (if double then '"' else '\'') then
          some ⟨read.reverse, next.skip, false⟩
        else
          let (gap, next) ← Gap.read 0 next.rest.length escaped .none next
          let filling := if escaped then gap.breaks else gap.folded
          scan double fuel (filling.reverse ++ read) next

end Quoted

namespace Block

inductive Chomp where
  | strip
  | clip
  | keep
deriving DecidableEq

/-- How far a block scalar is indented, if that is told, and what becomes of its last line
breaks. -/
structure Header where
  increment : Option Nat
  chomp : Chomp
deriving DecidableEq

def chomp? (c : Char) : Option Chomp :=
  if c = '+' then some .keep else if c = '-' then some .strip else none

def increment? (c : Char) : Option Nat :=
  if Text.isDigit c then some (Text.digitValue c) else none

/-- The header behind the indicator and how many characters it takes: an increment and a sign, in
either order. -/
def header (cs : List Char) : Header × Nat :=
  match cs with
  | [] => (⟨none, .clip⟩, 0)
  | c :: rest =>
      match chomp? c, increment? c with
      | some chomp, _ =>
          match rest.head?.bind increment? with
          | some n => (⟨some n, chomp⟩, 2)
          | none => (⟨none, chomp⟩, 1)
      | none, some n =>
          match rest.head?.bind chomp? with
          | some chomp => (⟨some n, chomp⟩, 2)
          | none => (⟨some n, .clip⟩, 1)
      | none, none => (⟨none, .clip⟩, 0)

/-- Passes indentation and empty lines. While the indentation is not known it is zero, and the
deepest column that is met comes with the answer. -/
def margins (indent : Nat) :
    Nat → (deepest : Nat) → List Char → Cursor → Option (List Char × Nat × Cursor)
  | 0, deepest, breaks, cursor => some (breaks, deepest, cursor)
  | fuel + 1, deepest, breaks, cursor =>
      let within := indent == 0 || cursor.column < indent
      match cursor.rest with
      | [] => some (breaks, max deepest cursor.column, cursor)
      | c :: _ =>
          if within && c == ' ' then margins indent fuel deepest breaks cursor.skip
          else
            let deepest := max deepest cursor.column
            if within && c == '\t' then none
            else if isBreak c then
              margins indent fuel deepest (breaks ++ [Cursor.breakValue c]) cursor.skipLine
            else some (breaks, deepest, cursor)

/-- The lines of a block; `read` is what came before, backwards, and `last` the line break in front
of the present line. -/
def lines (literal : Bool) (indent : Nat) :
    Nat → (read : List Char) → (last : Option Char) → (breaks : List Char) → (afterBlank : Bool) →
      Cursor → Option (List Char × Option Char × List Char × Cursor)
  | 0, read, last, breaks, _, cursor => some (read, last, breaks, cursor)
  | fuel + 1, read, last, breaks, afterBlank, cursor =>
      if cursor.column ≠ indent || cursor.rest.isEmpty then some (read, last, breaks, cursor)
      else
        let blank := (cursor.rest.head?.map isSpace).getD false
        let joint :=
          if !literal && last == some '\n' && !afterBlank && !blank then
            if breaks.isEmpty then [' '] else breaks
          else last.toList ++ breaks
        let text := cursor.rest.takeWhile fun c => !isBreak c
        let read := text.reverse ++ joint.reverse ++ read
        let cursor := cursor.skipMany text.length
        let last := cursor.rest.head?.map Cursor.breakValue
        let cursor := if cursor.rest.isEmpty then cursor else cursor.skipLine
        match margins indent (cursor.rest.length + 1) 0 [] cursor with
        | none => none
        | some (breaks, _, cursor) => lines literal indent fuel read last breaks blank cursor

/-- A block scalar behind its indicator, inside a block that is indented by `parent`. -/
def scan (literal : Bool) (parent : Int) (cursor : Cursor) : Option ScannedScalar := do
  let (header, width) := header cursor.rest
  if header.increment = some 0 then none
  let cursor := cursor.skipMany width
  let cursor := cursor.skipMany (cursor.rest.takeWhile isSpace).length
  let cursor := if cursor.rest.head? == some '#' then cursor.skipComment else cursor
  if !startsGap cursor.rest then none
  let cursor := if cursor.rest.isEmpty then cursor else cursor.skipLine
  let given := (header.increment.map fun n => (max parent 0).toNat + n).getD 0
  let (breaks, deepest, cursor) ← margins given (cursor.rest.length + 1) 0 [] cursor
  let indent := if given = 0 then max (max deepest (parent + 1).toNat) 1 else given
  let (read, last, breaks, cursor) ←
    lines literal indent (cursor.rest.length + 1) [] none breaks false cursor
  let ending := match header.chomp with
    | .strip => []
    | .clip => last.toList
    | .keep => last.toList ++ breaks
  return ⟨read.reverse ++ ending, cursor, false⟩

end Block

end MetricAlerts.Yaml
