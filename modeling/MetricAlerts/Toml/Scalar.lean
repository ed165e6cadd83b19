import MetricAlerts.Calendar.Civil
import MetricAlerts.Decimal.Reading
import MetricAlerts.Document.Json

/-!
# TOML scalars

Texts in four kinds of quotes, numbers in four bases, truth values and points in time. A point in
time is kept as its text. Whole numbers have at most 64 bits with their sign.
-/

namespace MetricAlerts.Toml

open Text

def isSpace (c : Char) : Bool :=
  c == ' ' || c == '\t'

def dropSpaces (cs : List Char) : List Char :=
  cs.dropWhile isSpace

/-- Passes one line break. -/
def dropBreak? : List Char → Option (List Char)
  | '\n' :: rest => some rest
  | '\r' :: '\n' :: rest => some rest
  | _ => none

/-- Characters that may stand in comments and quotes. -/
def isVisible (c : Char) : Bool :=
  c == '\t' || (32 ≤ c.toNat && c.toNat != 127)

/-- Passes a comment, if there is one, up to the end of its line. -/
def dropComment (cs : List Char) : List Char :=
  match cs with
  | '#' :: rest => rest.dropWhile isVisible
  | _ => cs

/-- Passes blanks, comments and line breaks. -/
def dropFiller : Nat → List Char → List Char
  | 0, cs => cs
  | fuel + 1, cs =>
      let rest := dropComment (dropSpaces cs)
      match dropBreak? rest with
      | some rest => dropFiller fuel rest
      | none => rest

def hexValue (cs : List Char) : Option Nat :=
  cs.foldlM (fun value c => (Document.Json.hexValue? c).map (16 * value + ·)) 0

/-- A character given by its number in so many hexadecimal digits. -/
def readCode (width : Nat) (cs : List Char) : Option (Char × List Char) := do
  let digits := cs.take width
  let value ← hexValue digits
  if digits.length = width ∧ value.isValidChar then some (Char.ofNat value, cs.drop width)
  else none

def simpleEscape? (c : Char) : Option Char :=
  match c with
  | 'b' => some (Char.ofNat 8)
  | 't' => some '\t'
  | 'n' => some '\n'
  | 'f' => some (Char.ofNat 12)
  | 'r' => some '\r'
  | '"' => some '"'
  | '\\' => some '\\'
  | _ => none

def readEscape (cs : List Char) : Option (Char × List Char) :=
  match cs with
  | 'u' :: rest => readCode 4 rest
  | 'U' :: rest => readCode 8 rest
  | c :: rest => (simpleEscape? c).map (·, rest)
  | [] => none

/-- The rest of a text on one line, up to the quote that ends it. -/
def readLineQuoted (escapes : Bool) (quote : Char) :
    Nat → (read : List Char) → List Char → Option (String × List Char)
  | 0, _, _ => none
  | _ + 1, _, [] => none
  | fuel + 1, read, c :: rest =>
      if c = quote then some (String.ofList read.reverse, rest)
      else if escapes ∧ c = '\\' then do
        let (c, rest) ← readEscape rest
        readLineQuoted escapes quote fuel (c :: read) rest
      else if isVisible c then readLineQuoted escapes quote fuel (c :: read) rest
      else none

/-- Blanks, a line break and all blanks and line breaks behind it, as a backslash joins lines. -/
def joinedLine? (cs : List Char) : Option (List Char) :=
  (dropBreak? (dropSpaces cs)).map fun rest =>
    rest.dropWhile fun c => isSpace c || c == '\n' || c == '\r'

/-- The rest of a text over several lines. Three quotes end it, and up to two more before them are
part of it. -/
def readLinesQuoted (escapes : Bool) (quote : Char) :
    Nat → (read : List Char) → List Char → Option (String × List Char)
  | 0, _, _ => none
  | _ + 1, _, [] => none
  | fuel + 1, read, c :: rest =>
      let quotes := ((c :: rest).takeWhile (· = quote)).length
      if 3 ≤ quotes then
        let inner := min (quotes - 3) 2
        some (String.ofList (read.reverse ++ List.replicate inner quote),
          (c :: rest).drop (inner + 3))
      else if escapes ∧ c = '\\' then
        match joinedLine? rest with
        | some rest => readLinesQuoted escapes quote fuel read rest
        | none => do
            let (c, rest) ← readEscape rest
            readLinesQuoted escapes quote fuel (c :: read) rest
      else match dropBreak? (c :: rest) with
        | some rest => readLinesQuoted escapes quote fuel ('\n' :: read) rest
        | none =>
            if isVisible c then readLinesQuoted escapes quote fuel (c :: read) rest else none

/-- A text in quotes, from its first quote on. -/
def readQuoted (cs : List Char) : Option (String × List Char) :=
  let fuel := cs.length + 1
  let lines (escapes : Bool) (quote : Char) (rest : List Char) :=
    readLinesQuoted escapes quote fuel [] ((dropBreak? rest).getD rest)
  match cs with
  | '"' :: '"' :: '"' :: rest => lines true '"' rest
  | '\'' :: '\'' :: '\'' :: rest => lines false '\'' rest
  | '"' :: rest => readLineQuoted true '"' fuel [] rest
  | '\'' :: rest => readLineQuoted false '\'' fuel [] rest
  | _ => none

/-- Drops underscores, each of which has to stand between two digits. -/
def joinDigits (accepts : Char → Bool) : List Char → Option (List Char)
  | [] => none
  | [c] => if accepts c then some [c] else none
  | c :: '_' :: rest => if accepts c then (joinDigits accepts rest).map (c :: ·) else none
  | c :: rest => if accepts c then (joinDigits accepts rest).map (c :: ·) else none

def wholeInRange (n : Int) : Option Document :=
  if Int64.minValue.toInt ≤ n ∧ n ≤ Int64.maxValue.toInt then some (.int n) else none

/-- The digits of a number in a base that is a power of two. -/
def readBased (base : Nat) (cs : List Char) : Option Document := do
  let accepts (c : Char) := (Document.Json.hexValue? c).any (· < base)
  let digits ← joinDigits accepts cs
  let value := digits.foldl (fun n c => base * n + (Document.Json.hexValue? c).getD 0) 0
  wholeInRange value

/-- Digits without a needless zero in front. -/
def readWholeDigits (cs : List Char) : Option (List Char) := do
  let digits ← joinDigits isDigit cs
  if digits.length > 1 ∧ digits.head? = some '0' then none else some digits

def splitSign : List Char → Bool × List Char
  | '-' :: rest => (true, rest)
  | '+' :: rest => (false, rest)
  | rest => (false, rest)

/-- A number with a point or an exponent. -/
def readFractional (negative : Bool) (cs : List Char) : Option Document := do
  let isMark (c : Char) := c == 'e' || c == 'E'
  let mantissa := cs.takeWhile fun c => !isMark c
  let whole ← readWholeDigits (mantissa.takeWhile (· ≠ '.'))
  let fraction ← match mantissa.dropWhile (· ≠ '.') with
    | [] => some []
    | _ :: fraction => joinDigits isDigit fraction
  let exponent ← match cs.drop mantissa.length with
    | [] => some none
    | _ :: exponent => do
        let (negative, digits) := splitSign exponent
        let value : Int := digitsValue (← joinDigits isDigit digits)
        some (some (if negative then -value else value))
  let numeral : Decimal.Numeral := ⟨negative, whole, fraction, !fraction.isEmpty, exponent⟩
  if numeral.toFloat.isFinite then some (.number numeral.toFloat) else none

def readNumber (cs : List Char) : Option Document :=
  match cs with
  | '0' :: 'x' :: digits => readBased 16 digits
  | '0' :: 'o' :: digits => readBased 8 digits
  | '0' :: 'b' :: digits => readBased 2 digits
  | _ =>
      let (negative, body) := splitSign cs
      match String.ofList body with
      | "inf" => some (.number (if negative then -1.0 / 0.0 else 1.0 / 0.0))
      | "nan" => some (.number (0.0 / 0.0))
      | _ =>
          match readWholeDigits body with
          | some digits =>
              let value : Int := digitsValue digits
              wholeInRange (if negative then -value else value)
          | none => readFractional negative body

/-- Two digits below a bound. -/
def readPart (bound : Nat) (cs : List Char) : Option (List Char) :=
  match cs with
  | a :: b :: rest =>
      if isDigit a ∧ isDigit b ∧ digitsValue [a, b] < bound then some rest else none
  | _ => none

def readMark (mark : Char) (cs : List Char) : Option (List Char) :=
  match cs with
  | c :: rest => if c = mark then some rest else none
  | [] => none

/-- Hours, minutes, seconds and a fraction. -/
def readClock (cs : List Char) : Option (List Char) := do
  let cs ← readPart 24 cs
  let cs ← readPart 60 (← readMark ':' cs)
  let cs ← readPart 61 (← readMark ':' cs)
  match cs with
  | '.' :: rest =>
      let digits := rest.takeWhile isDigit
      if digits.isEmpty then none else some (rest.drop digits.length)
  | rest => some rest

def readOffset (cs : List Char) : Option (List Char) :=
  match cs with
  | [] => some []
  | ['Z'] | ['z'] => some []
  | c :: rest =>
      if c = '+' ∨ c = '-' then do
        let rest ← readPart 24 rest
        readPart 60 (← readMark ':' rest)
      else none

/-- Year, month and day. -/
def readDate (cs : List Char) : Option (List Char) := do
  let year := cs.take 4
  if year.length = 4 ∧ year.all isDigit then
    let month := (cs.drop 5).take 2
    let rest ← readPart 13 (← readMark '-' (cs.drop 4))
    let day := (rest.drop 1).take 2
    let rest ← readPart 32 (← readMark '-' rest)
    let civil : Calendar.Civil := ⟨digitsValue year, digitsValue month, digitsValue day⟩
    if civil.isValid then some rest else none
  else none

/-- A day, a time of day or both. -/
def isTime (cs : List Char) : Bool :=
  match readDate cs with
  | some [] => true
  | some (c :: rest) =>
      (c == 'T' || c == 't' || c == ' ') && ((readClock rest).bind readOffset) == some []
  | none => readClock cs == some []

/-- Letters of everything but texts, lists and records. -/
def isWordPart (c : Char) : Bool :=
  c.isAlphanum || c == '_' || c == '+' || c == '-' || c == '.' || c == ':'

/-- A word; after a day, a time may follow a single space. -/
def readWord (cs : List Char) : List Char × List Char :=
  let word := cs.takeWhile isWordPart
  let rest := cs.drop word.length
  match rest with
  | ' ' :: c :: _ =>
      if isDigit c ∧ readDate word = some [] then
        let time := (rest.drop 1).takeWhile isWordPart
        (word ++ ' ' :: time, rest.drop (time.length + 1))
      else (word, rest)
  | _ => (word, rest)

def ofWord? (word : List Char) : Option Document :=
  match String.ofList word with
  | "true" => some (.bool true)
  | "false" => some (.bool false)
  | text => if isTime word then some (.text text) else readNumber word

end MetricAlerts.Toml
