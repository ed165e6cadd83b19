import MetricAlerts.Yaml.Plain
import MetricAlerts.Yaml.Token

/-!
# Documents from tokens

Tokens put together into a document. What is left out between two marks is null. A record must not
have a key twice, and lists and records may be nested 128 deep.
-/

namespace MetricAlerts.Yaml

/-- Greatest number of lists and records inside one another. -/
def maxNesting : Nat := 128

/-- A key that is a whole number stands for a place. -/
def keyOf : Document → Key
  | .text name => .name name
  | .int n => if 0 ≤ n then .position n.toNat else .other
  | _ => .other

/-- Whether two keys are written alike, their kind included. -/
def sameKey (a b : Document) : Bool :=
  Document.Json.render a == Document.Json.render b

def hasRepeatedKey : List (Document × Document) → Bool
  | [] => false
  | (key, _) :: rest => rest.any (fun entry => sameKey key entry.1) || hasRepeatedKey rest

def recordOf (entries : List (Document × Document)) : Option Document :=
  if hasRepeatedKey entries then none
  else some (.record (entries.map fun (key, value) => (keyOf key, value)))

def scalarOf (plain : Bool) (text : String) : Option Document :=
  if plain then ofPlain? text else some (.text text)

/-- Whether there is nothing where a node is expected. -/
def isGap (closing : List Token) : List Token → Bool
  | [] => true
  | token :: _ => closing.contains token

/-- What follows the comma that is due in front of every item but the first. -/
def afterSeparator (first : Bool) (tokens : List Token) : Option (List Token) :=
  if first then some tokens
  else match tokens with
    | .separator :: rest => some rest
    | _ => none

/-- The depth that is left inside one more list or record. -/
def deeper (depth : Nat) : Option Nat :=
  if depth = 0 then none else some (depth - 1)

mutual

/-- A node; `depth` more lists and records may be opened. In some places of a block a list may
stand without indentation. -/
def readNode (fuel : Nat) (inBlock bareList : Bool) (depth : Nat) (tokens : List Token) :
    Option (Document × List Token) :=
  match fuel with
  | 0 => none
  | fuel + 1 =>
      match tokens with
      | .scalar plain text :: rest => (scalarOf plain text).map fun d => (d, rest)
      | .item :: _ =>
          if inBlock && bareList then do
            let (items, rest) ← readItems fuel true (← deeper depth) tokens
            return (.list items, rest)
          else none
      | .flowList :: rest => do
          let (items, rest) ← readFlowItems fuel true (← deeper depth) rest
          return (.list items, rest)
      | .flowRecord :: rest => do
          let (entries, rest) ← readFlowEntries fuel true (← deeper depth) rest
          return (← recordOf entries, rest)
      | .blockList :: rest =>
          if inBlock then do
            let (items, rest) ← readItems fuel false (← deeper depth) rest
            return (.list items, rest)
          else none
      | .blockRecord :: rest =>
          if inBlock then do
            let (entries, rest) ← readEntries fuel (← deeper depth) rest
            return (← recordOf entries, rest)
          else none
      | _ => none

/-- A node, or null if one of the closing tokens comes first. -/
def readOptional (fuel : Nat) (inBlock bareList : Bool) (closing : List Token) (depth : Nat)
    (tokens : List Token) : Option (Document × List Token) :=
  match fuel with
  | 0 => none
  | fuel + 1 =>
      if isGap closing tokens then some (.null, tokens)
      else readNode fuel inBlock bareList depth tokens

/-- A value after its mark, or null if there is no mark. -/
def readValue (fuel : Nat) (inBlock : Bool) (closing : List Token) (depth : Nat)
    (tokens : List Token) : Option (Document × List Token) :=
  match fuel with
  | 0 => none
  | fuel + 1 =>
      match tokens with
      | .value :: rest => readOptional fuel inBlock inBlock closing depth rest
      | _ => some (.null, tokens)

/-- Items of a block list. A bare one ends with its last item. -/
def readItems (fuel : Nat) (bare : Bool) (depth : Nat) (tokens : List Token) :
    Option (List Document × List Token) :=
  match fuel with
  | 0 => none
  | fuel + 1 =>
      match tokens with
      | .item :: rest => do
          let closing := if bare then [.item, .key, .value, .blockEnd] else [.item, .blockEnd]
          let (item, rest) ← readOptional fuel true false closing depth rest
          let (items, rest) ← readItems fuel bare depth rest
          return (item :: items, rest)
      | .blockEnd :: rest => if bare then some ([], tokens) else some ([], rest)
      | _ => if bare then some ([], tokens) else none

/-- Entries of a block record. -/
def readEntries (fuel : Nat) (depth : Nat) (tokens : List Token) :
    Option (List (Document × Document) × List Token) :=
  match fuel with
  | 0 => none
  | fuel + 1 =>
      match tokens with
      | .key :: rest => do
          let closing := [.key, .value, .blockEnd]
          let (key, rest) ← readOptional fuel true true closing depth rest
          let (value, rest) ← readValue fuel true closing depth rest
          let (entries, rest) ← readEntries fuel depth rest
          return ((key, value) :: entries, rest)
      | .blockEnd :: rest => some ([], rest)
      | _ => none

/-- Items of a list in brackets; a key among them begins a record of one entry. -/
def readFlowItems (fuel : Nat) (first : Bool) (depth : Nat) (tokens : List Token) :
    Option (List Document × List Token) :=
  match fuel with
  | 0 => none
  | fuel + 1 =>
      match tokens with
      | .flowListEnd :: rest => some ([], rest)
      | _ => do
          match ← afterSeparator first tokens with
          | .flowListEnd :: rest => return ([], rest)
          | .key :: rest =>
              let (entry, rest) ← readPair fuel (← deeper depth) rest
              let (items, rest) ← readFlowItems fuel false depth rest
              return (entry :: items, rest)
          | tokens =>
              let (item, rest) ← readNode fuel false false depth tokens
              let (items, rest) ← readFlowItems fuel false depth rest
              return (item :: items, rest)

/-- The one entry of a record without braces. -/
def readPair (fuel : Nat) (depth : Nat) (tokens : List Token) :
    Option (Document × List Token) :=
  match fuel with
  | 0 => none
  | fuel + 1 => do
      let (key, rest) ←
        readOptional fuel false false [.value, .separator, .flowListEnd] depth tokens
      let (value, rest) ← readValue fuel false [.separator, .flowListEnd] depth rest
      return (← recordOf [(key, value)], rest)

/-- Entries of a record in braces; one without a colon is a key with nothing to it. -/
def readFlowEntries (fuel : Nat) (first : Bool) (depth : Nat) (tokens : List Token) :
    Option (List (Document × Document) × List Token) :=
  match fuel with
  | 0 => none
  | fuel + 1 =>
      match tokens with
      | .flowRecordEnd :: rest => some ([], rest)
      | _ => do
          match ← afterSeparator first tokens with
          | .flowRecordEnd :: rest => return ([], rest)
          | .key :: rest =>
              let (key, rest) ←
                readOptional fuel false false [.value, .separator, .flowRecordEnd] depth rest
              let (value, rest) ← readValue fuel false [.separator, .flowRecordEnd] depth rest
              let (entries, rest) ← readFlowEntries fuel false depth rest
              return ((key, value) :: entries, rest)
          | tokens =>
              let (key, rest) ← readNode fuel false false depth tokens
              let (entries, rest) ← readFlowEntries fuel false depth rest
              return ((key, .null) :: entries, rest)

end

/-- Marks that may stand between and behind documents. -/
def skipEnds : List Token → List Token
  | .documentEnd :: rest => skipEnds rest
  | tokens => tokens

/-- The only document of a stream. A stream without any token holds null. -/
def ofTokens? (tokens : List Token) : Option Document :=
  let fuel := 4 * tokens.length + 4
  match tokens with
  | [] => some .null
  | _ => do
      let (document, rest) ← match tokens with
        | .documentStart :: rest =>
            readOptional fuel true false [.documentStart, .documentEnd] maxNesting rest
        | _ => readNode fuel true false maxNesting tokens
      if (skipEnds rest).isEmpty then some document else none

/-- Reads a text that holds one document. There is nothing for a text with anchors, aliases, tags or
directives, which are not read. -/
def read? (s : String) : Option Document := do
  ofTokens? (← tokens? s)

end MetricAlerts.Yaml
