import MetricAlerts.Document.Basic
import MetricAlerts.Decimal.Layout
import MetricAlerts.Decimal.Reading

/-!
# JSON

Documents written as JSON, on one line or indented by two spaces, and read back. Characters beyond
ASCII stand for themselves; control characters, quotes and backslashes are escaped. Of two fields
with one name the later value counts.
-/

namespace MetricAlerts.Document.Json

open Text Decimal

def hexDigit (n : Nat) : Char :=
  if n < 10 then Char.ofNat (48 + n) else Char.ofNat (87 + n)

def escapeChar (c : Char) : List Char :=
  if c = '"' then ['\\', '"']
  else if c = '\\' then ['\\', '\\']
  else if c = '\n' then ['\\', 'n']
  else if c = '\r' then ['\\', 'r']
  else if c = '\t' then ['\\', 't']
  else if c.toNat = 8 then ['\\', 'b']
  else if c.toNat = 12 then ['\\', 'f']
  else if c.toNat < 32 then
    ['\\', 'u', '0', '0', hexDigit (c.toNat / 16), hexDigit (c.toNat % 16)]
  else [c]

def quoted (s : String) : List Char :=
  '"' :: s.toList.flatMap escapeChar ++ ['"']

def keyChars : Key → List Char
  | .name s => quoted s
  | .position index => quoted (String.ofList (numeral index))
  | .other => quoted ""

/-- Null, for the values that no number of a document can express. -/
def nullChars : List Char := ['n', 'u', 'l', 'l']

def numberChars (x : Float) : List Char :=
  match numberText? x with
  | some s => s.toList
  | none => nullChars

/-- How the parts of a list or record are set apart. -/
structure Spacing where
  lineBreak : Nat → List Char
  afterColon : List Char

def compact : Spacing := ⟨fun _ => [], []⟩

def indented : Spacing := ⟨fun depth => '\n' :: List.replicate (2 * depth) ' ', [' ']⟩

mutual

def write (spacing : Spacing) (depth : Nat) : Document → List Char
  | .null => nullChars
  | .bool true => ['t', 'r', 'u', 'e']
  | .bool false => ['f', 'a', 'l', 's', 'e']
  | .int n => intNumeral n
  | .number x => numberChars x
  | .text s => quoted s
  | .list [] => ['[', ']']
  | .list (item :: items) =>
      '[' :: spacing.lineBreak (depth + 1) ++ write spacing (depth + 1) item ++
        writeItems spacing (depth + 1) items ++ spacing.lineBreak depth ++ [']']
  | .record [] => ['{', '}']
  | .record ((key, value) :: fields) =>
      '{' :: spacing.lineBreak (depth + 1) ++ keyChars key ++ ':' :: spacing.afterColon ++
        write spacing (depth + 1) value ++ writeFields spacing (depth + 1) fields ++
        spacing.lineBreak depth ++ ['}']

def writeItems (spacing : Spacing) (depth : Nat) : List Document → List Char
  | [] => []
  | item :: items =>
      ',' :: spacing.lineBreak depth ++ write spacing depth item ++
        writeItems spacing depth items

def writeFields (spacing : Spacing) (depth : Nat) : List (Key × Document) → List Char
  | [] => []
  | (key, value) :: fields =>
      ',' :: spacing.lineBreak depth ++ keyChars key ++ ':' :: spacing.afterColon ++
        write spacing depth value ++ writeFields spacing depth fields

end

def render (document : Document) : String :=
  String.ofList (write compact 0 document)

def renderIndented (document : Document) : String :=
  String.ofList (write indented 0 document)

def dropSpace (cs : List Char) : List Char :=
  cs.dropWhile fun c => c == ' ' || c == '\n' || c == '\r' || c == '\t'

def hexValue? (c : Char) : Option Nat :=
  if isDigit c then some (digitValue c)
  else if 97 ≤ c.toNat && c.toNat ≤ 102 then some (c.toNat - 87)
  else if 65 ≤ c.toNat && c.toNat ≤ 70 then some (c.toNat - 55)
  else none

/-- Four hexadecimal digits. -/
def readUnit (cs : List Char) : Option (Nat × List Char) :=
  match cs with
  | a :: b :: c :: d :: rest => do
      let a ← hexValue? a
      let b ← hexValue? b
      let c ← hexValue? c
      let d ← hexValue? d
      return (4096 * a + 256 * b + 16 * c + d, rest)
  | _ => none

/-- The character after a u escape; one beyond the first 65536 takes two escapes. -/
def readEscapedUnit (cs : List Char) : Option (Char × List Char) := do
  let (unit, rest) ← readUnit cs
  if 0xD800 ≤ unit ∧ unit < 0xDC00 then
    match rest with
    | '\\' :: 'u' :: rest =>
        let (low, rest) ← readUnit rest
        if 0xDC00 ≤ low ∧ low < 0xE000 then
          some (Char.ofNat (0x10000 + (unit - 0xD800) * 1024 + (low - 0xDC00)), rest)
        else none
    | _ => none
  else if 0xDC00 ≤ unit ∧ unit < 0xE000 then none
  else some (Char.ofNat unit, rest)

def simpleEscape? (c : Char) : Option Char :=
  if c = '"' ∨ c = '\\' ∨ c = '/' then some c
  else if c = 'n' then some '\n'
  else if c = 'r' then some '\r'
  else if c = 't' then some '\t'
  else if c = 'b' then some (Char.ofNat 8)
  else if c = 'f' then some (Char.ofNat 12)
  else none

/-- The rest of a quoted text after its opening quote. -/
def readQuoted : Nat → List Char → List Char → Option (String × List Char)
  | 0, _, _ => none
  | _ + 1, _, [] => none
  | fuel + 1, read, c :: rest =>
      if c = '"' then some (String.ofList read.reverse, rest)
      else if c = '\\' then
        match rest with
        | 'u' :: rest => do
            let (c, rest) ← readEscapedUnit rest
            readQuoted fuel (c :: read) rest
        | c :: rest => do
            let c ← simpleEscape? c
            readQuoted fuel (c :: read) rest
        | [] => none
      else if c.toNat < 32 then none
      else readQuoted fuel (c :: read) rest

/-- Whole numbers of at most 64 bits stay whole; all others become doubles, and so does -0. -/
def ofNumeral (n : Numeral) : Document :=
  let magnitude := digitsValue n.whole
  if n.hasPoint || n.exponent.isSome then .number n.toFloat
  else if n.negative then
    if magnitude = 0 ∨ Nat.pow 2 63 < magnitude then .number n.toFloat
    else .int (-(magnitude : Int))
  else if UInt64.size ≤ magnitude then .number n.toFloat
  else .int magnitude

def readNumber (cs : List Char) : Option (Document × List Char) := do
  let (negative, rest) := match cs with
    | '-' :: rest => (true, rest)
    | rest => (false, rest)
  let (n, rest) ← readUnsigned negative rest
  let leadingZero := n.whole.length > 1 && n.whole.head? == some '0'
  if n.whole.isEmpty || leadingZero || (n.hasPoint && n.fraction.isEmpty) then none
  else if (ofNumeral n matches .number _) && !n.toFloat.isFinite then none
  else return (ofNumeral n, rest)

def setField (name : String) (value : Document) (fields : List (Key × Document)) :
    List (Key × Document) :=
  match fields with
  | [] => [(.name name, value)]
  | (key, old) :: rest =>
      if key = .name name then (key, value) :: rest
      else (key, old) :: setField name value rest

mutual

def readValue : Nat → List Char → Option (Document × List Char)
  | 0, _ => none
  | fuel + 1, cs =>
      match dropSpace cs with
      | 'n' :: 'u' :: 'l' :: 'l' :: rest => some (.null, rest)
      | 't' :: 'r' :: 'u' :: 'e' :: rest => some (.bool true, rest)
      | 'f' :: 'a' :: 'l' :: 's' :: 'e' :: rest => some (.bool false, rest)
      | '"' :: rest => do
          let (s, rest) ← readQuoted (rest.length + 1) [] rest
          return (.text s, rest)
      | '[' :: rest =>
          match dropSpace rest with
          | ']' :: rest => some (.list [], rest)
          | _ => do
              let (items, rest) ← readItems fuel rest
              return (.list items, rest)
      | '{' :: rest =>
          match dropSpace rest with
          | '}' :: rest => some (.record [], rest)
          | _ => do
              let (fields, rest) ← readFields fuel [] rest
              return (.record fields, rest)
      | rest => readNumber rest

def readItems : Nat → List Char → Option (List Document × List Char)
  | 0, _ => none
  | fuel + 1, cs => do
      let (item, rest) ← readValue fuel cs
      match dropSpace rest with
      | ',' :: rest =>
          let (items, rest) ← readItems fuel rest
          return (item :: items, rest)
      | ']' :: rest => return ([item], rest)
      | _ => none

def readFields : Nat → List (Key × Document) → List Char →
    Option (List (Key × Document) × List Char)
  | 0, _, _ => none
  | fuel + 1, fields, cs =>
      match dropSpace cs with
      | '"' :: rest => do
          let (name, rest) ← readQuoted (rest.length + 1) [] rest
          match dropSpace rest with
          | ':' :: rest =>
              let (value, rest) ← readValue fuel rest
              let fields := setField name value fields
              match dropSpace rest with
              | ',' :: rest => readFields fuel fields rest
              | '}' :: rest => return (fields, rest)
              | _ => none
          | _ => none
      | _ => none

end

def read? (s : String) : Option Document := do
  let cs := s.toList
  let (document, rest) ← readValue (cs.length + 1) cs
  if (dropSpace rest).isEmpty then some document else none

end MetricAlerts.Document.Json
