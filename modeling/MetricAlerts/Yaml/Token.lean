import MetricAlerts.Yaml.Scalar

/-!
# Tokens

A YAML text cut into tokens. Where blocks begin and end is told by indentation, and whether a
scalar is a key is known only when its colon is met: the tokens in front of it are then put in at
the place where the key began. A key stands on one line and is at most 1024 characters long.
-/

namespace MetricAlerts.Yaml

inductive Token where
  | documentStart
  | documentEnd
  | blockList
  | blockRecord
  | blockEnd
  | flowList
  | flowListEnd
  | flowRecord
  | flowRecordEnd
  | separator
  | item
  | key
  | value
  | scalar (plain : Bool) (text : String)
deriving DecidableEq

/-- A place where a key may have begun. -/
structure PossibleKey where
  /-- Nothing else than a key can stand there. -/
  required : Bool
  token : Nat
  place : Cursor

structure Scanner where
  cursor : Cursor
  /-- Tokens found so far, the latest first. -/
  found : List Token
  /-- Columns of the open blocks, innermost first. -/
  indents : List Nat
  /-- The possible key of every open bracket and of what is outside of brackets, innermost first. -/
  keys : List (Option PossibleKey)
  /-- Whether a key may begin here. -/
  keyAllowed : Bool

namespace Scanner

def start (cs : List Char) : Scanner :=
  ⟨.start cs, [], [], [none], true⟩

def inFlow (s : Scanner) : Bool :=
  1 < s.keys.length

/-- Column of the innermost block, -1 outside of all. -/
def indent (s : Scanner) : Int :=
  match s.indents with
  | [] => -1
  | column :: _ => column

def emit (s : Scanner) (token : Token) : Scanner :=
  { s with found := token :: s.found }

/-- Puts a token in so that it becomes the one with the given number. -/
def emitAt (s : Scanner) (number : Nat) (token : Token) : Scanner :=
  { s with found := s.found.insertIdx (s.found.length - number) token }

/-- Passes blanks, comments and line breaks. A tab may stand between tokens but not where a key may
begin. -/
def skipGap : Nat → Scanner → Scanner
  | 0, s => s
  | fuel + 1, s =>
      match s.cursor.rest with
      | [] => s
      | c :: _ =>
          if c == ' ' || (c == '\t' && (s.inFlow || !s.keyAllowed)) then
            skipGap fuel { s with cursor := s.cursor.skip }
          else if c == '#' then skipGap fuel { s with cursor := s.cursor.skipComment }
          else if isBreak c then
            skipGap fuel
              { s with cursor := s.cursor.skipLine, keyAllowed := s.keyAllowed || !s.inFlow }
          else s

/-- Gives up the possible keys that lie too far back. -/
def dropStaleKeys (s : Scanner) : Option Scanner := do
  let keys ← s.keys.mapM fun key =>
    match key with
    | none => some none
    | some key =>
        if key.place.line < s.cursor.line ∨ key.place.index + 1024 < s.cursor.index then
          if key.required then none else some none
        else some (some key)
  return { s with keys }

/-- Gives up the present possible key. -/
def dropKey (s : Scanner) : Option Scanner :=
  match s.keys with
  | some key :: keys => if key.required then none else some { s with keys := none :: keys }
  | _ => some s

/-- Notes that a key may begin here. -/
def noteKey (s : Scanner) : Option Scanner :=
  if s.keyAllowed then do
    let s ← s.dropKey
    let required := !s.inFlow && s.indent == (s.cursor.column : Int)
    let key : PossibleKey := ⟨required, s.found.length, s.cursor⟩
    return { s with keys := some key :: s.keys.tail }
  else some s

/-- Opens a block at a column that is further in; `number` tells where its token goes. -/
def openBlock (s : Scanner) (column : Nat) (number : Option Nat) (token : Token) : Scanner :=
  if s.inFlow then s
  else if s.indent < (column : Int) then
    let s := { s with indents := column :: s.indents }
    match number with
    | some number => s.emitAt number token
    | none => s.emit token
  else s

/-- Closes the blocks that are further in than the column. -/
def closeBlocks (column : Int) : List Nat → Scanner → Scanner
  | [], s => { s with indents := [] }
  | indent :: indents, s =>
      if column < (indent : Int) then closeBlocks column indents (s.emit .blockEnd)
      else { s with indents := indent :: indents }

def closeTo (s : Scanner) (column : Int) : Scanner :=
  if s.inFlow then s else closeBlocks column s.indents s

/-- A token of some characters after which a key may begin or not. -/
def pass (s : Scanner) (width : Nat) (token : Token) (keyAllowed : Bool) : Scanner :=
  { s.emit token with cursor := s.cursor.skipMany width, keyAllowed }

def documentMark (s : Scanner) (token : Token) : Option Scanner := do
  let s ← (s.closeTo (-1)).dropKey
  return s.pass 3 token false

def openFlow (s : Scanner) (token : Token) : Option Scanner := do
  let s ← s.noteKey
  let s := { s with keys := none :: s.keys }
  return s.pass 1 token true

def closeFlow (s : Scanner) (token : Token) : Option Scanner := do
  let s ← s.dropKey
  let s := if s.inFlow then { s with keys := s.keys.tail } else s
  return s.pass 1 token false

def separator (s : Scanner) : Option Scanner := do
  let s ← s.dropKey
  return s.pass 1 .separator true

/-- A dash or a question mark, each of which opens a block where there is none. -/
def blockMark (s : Scanner) (opening token : Token) (keyAllowed : Bool) : Option Scanner := do
  if !s.inFlow && !s.keyAllowed then none
  let s ← (s.openBlock s.cursor.column none opening).dropKey
  return s.pass 1 token keyAllowed

/-- A colon turns what began at the possible key into a key. -/
def colon (s : Scanner) : Option Scanner :=
  match s.keys with
  | some key :: keys =>
      let s := { s with keys := none :: keys }
      let s := (s.emitAt key.token .key).openBlock key.place.column (some key.token) .blockRecord
      some (s.pass 1 .value false)
  | _ =>
      if s.inFlow then some (s.pass 1 .value false)
      else if s.keyAllowed then
        some ((s.openBlock s.cursor.column none .blockRecord).pass 1 .value true)
      else none

def scalar (s : Scanner) (plain : Bool) (scanned : ScannedScalar) (keyAllowed : Bool) : Scanner :=
  { s.emit (.scalar plain (String.ofList scanned.chars)) with
    cursor := scanned.cursor
    keyAllowed }

def quoted (s : Scanner) (double : Bool) : Option Scanner := do
  let s ← s.noteKey
  let scanned ← Quoted.scan double (s.cursor.rest.length + 1) [] s.cursor.skip
  return s.scalar false scanned false

def block (s : Scanner) (literal : Bool) : Option Scanner := do
  let s ← s.dropKey
  let scanned ← Block.scan literal s.indent s.cursor.skip
  return s.scalar false scanned true

def plain (s : Scanner) : Option Scanner := do
  let s ← s.noteKey
  let scanned ←
    Plain.scan s.inFlow (s.indent + 1).toNat (s.cursor.rest.length + 1) [] .none s.cursor
  return s.scalar true scanned scanned.broken

/-- Characters that no plain scalar begins with. -/
def isIndicator (c : Char) : Bool :=
  ['-', '?', ':', ',', '[', ']', '{', '}', '#', '&', '*', '!', '|', '>', '\'', '"', '%',
    '@'].contains c || c.toNat == 0x60

def startsPlain (inFlow : Bool) (c : Char) (rest : List Char) : Bool :=
  !(isSpace c || isBreak c || isIndicator c) ||
    (c == '-' && !(rest.head?.map isSpace).getD false) ||
    (!inFlow && (c == '?' || c == ':') && !startsGap rest)

/-- The tokens at a character that begins one. Anchors, aliases, tags and directives are refused. -/
def next (s : Scanner) (c : Char) (rest : List Char) : Option Scanner :=
  if s.cursor.column = 0 ∧ c = '%' then none
  else if s.cursor.atDocumentMark then
    s.documentMark (if c = '-' then .documentStart else .documentEnd)
  else if c = '[' then s.openFlow .flowList
  else if c = '{' then s.openFlow .flowRecord
  else if c = ']' then s.closeFlow .flowListEnd
  else if c = '}' then s.closeFlow .flowRecordEnd
  else if c = ',' then s.separator
  else if c = '-' ∧ startsGap rest then s.blockMark .blockList .item true
  else if c = '?' ∧ (s.inFlow ∨ startsGap rest) then s.blockMark .blockRecord .key (!s.inFlow)
  else if c = ':' ∧ (s.inFlow ∨ startsGap rest) then s.colon
  else if c = '|' ∧ !s.inFlow then s.block true
  else if c = '>' ∧ !s.inFlow then s.block false
  else if c = '\'' then s.quoted false
  else if c = '"' then s.quoted true
  else if startsPlain s.inFlow c rest then s.plain
  else none

/-- The end of the text closes every block. -/
def finish (s : Scanner) : Option (List Token) := do
  let s ← (s.closeTo (-1)).dropKey
  return s.found.reverse

/-- Every token but the first costs at least one character. -/
def scan : Nat → Scanner → Option (List Token)
  | 0, _ => none
  | fuel + 1, s => do
      let s ← (skipGap (s.cursor.rest.length + 1) s).dropStaleKeys
      match s.cursor.rest with
      | [] => s.finish
      | c :: rest => do
          let s ← (s.closeTo s.cursor.column).next c rest
          scan fuel s

end Scanner

/-- The tokens of a text, which may begin with a byte order mark. -/
def tokens? (s : String) : Option (List Token) :=
  let cs := match s.toList with
    | c :: rest => if c.toNat = 0xFEFF then rest else c :: rest
    | [] => []
  if cs.all isAllowed then Scanner.scan (cs.length + 1) (.start cs) else none

end MetricAlerts.Yaml
