import MetricAlerts.Toml.Table

/-!
# Reading TOML

A text is a row of lines, each with a header, a value under a name, or nothing. Lists may go over
several lines, records in braces may not.
-/

namespace MetricAlerts.Toml

def isBareKey (c : Char) : Bool :=
  c.isAlphanum || c == '_' || c == '-'

/-- One part of a name. -/
def readSimpleKey (cs : List Char) : Option (String × List Char) :=
  match cs with
  | '"' :: '"' :: '"' :: _ => none
  | '\'' :: '\'' :: '\'' :: _ => none
  | '"' :: _ => readQuoted cs
  | '\'' :: _ => readQuoted cs
  | _ =>
      let name := cs.takeWhile isBareKey
      if name.isEmpty then none else some (String.ofList name, cs.drop name.length)

/-- The parts of a name between dots. -/
def readKey : Nat → List Char → Option (List String × List Char)
  | 0, _ => none
  | fuel + 1, cs => do
      let (name, rest) ← readSimpleKey (dropSpaces cs)
      match dropSpaces rest with
      | '.' :: rest =>
          let (names, rest) ← readKey fuel rest
          return (name :: names, rest)
      | rest => return ([name], rest)

mutual

def readValue : Nat → List Char → Option (Document × List Char)
  | 0, _ => none
  | fuel + 1, cs =>
      match cs with
      | '[' :: rest => do
          let (items, rest) ← readItems fuel rest
          return (.list items, rest)
      | c :: rest =>
          if c.toNat = 0x7b then
            match dropSpaces rest with
            | [] => none
            | d :: after =>
                if d.toNat = 0x7d then some (.record [], after)
                else do
                  let (entries, rest) ← readEntries fuel [] rest
                  return (.record (documentFields entries), rest)
          else if c = '"' ∨ c = '\'' then do
            let (text, rest) ← readQuoted cs
            return (.text text, rest)
          else do
            let (word, rest) := readWord cs
            return (← ofWord? word, rest)
      | [] => none

/-- Items of a list up to its bracket; the last one may have a comma behind it. -/
def readItems : Nat → List Char → Option (List Document × List Char)
  | 0, _ => none
  | fuel + 1, cs =>
      match dropFiller cs.length cs with
      | ']' :: rest => some ([], rest)
      | rest => do
          let (item, rest) ← readValue fuel rest
          match dropFiller rest.length rest with
          | ',' :: rest =>
              let (items, rest) ← readItems fuel rest
              return (item :: items, rest)
          | ']' :: rest => return ([item], rest)
          | _ => none

/-- Pairs of a record in braces up to its brace. -/
def readEntries : Nat → Entries → List Char → Option (Entries × List Char)
  | 0, _, _ => none
  | fuel + 1, entries, cs => do
      let (path, rest) ← readKey cs.length cs
      let '=' :: rest := rest | none
      let (document, rest) ← readValue fuel (dropSpaces rest)
      let entries ← addPair path document entries
      match dropSpaces rest with
      | ',' :: rest => readEntries fuel entries rest
      | c :: rest => if c.toNat = 0x7d then some (entries, rest) else none
      | [] => none

end

/-- Passes the end of a line, with a comment before it. -/
def dropLineEnd (cs : List Char) : Option (List Char) :=
  match dropComment (dropSpaces cs) with
  | [] => some []
  | rest => dropBreak? rest

/-- The name in a header, up to the brackets that close it. -/
def readHeader (brackets : Nat) (cs : List Char) : Option (List String × List Char) := do
  let (path, rest) ← readKey cs.length cs
  if rest.take brackets = List.replicate brackets ']' then some (path, rest.drop brackets)
  else none

/-- Reads line by line; `header` is the path of the table that is open. -/
def readLines : Nat → (header : List String) → Entries → List Char → Option Entries
  | 0, _, _, _ => none
  | fuel + 1, header, entries, cs =>
      match dropFiller cs.length cs with
      | [] => some entries
      | '[' :: '[' :: rest => do
          let (path, rest) ← readHeader 2 rest
          readLines fuel path (← addListHeader path entries) (← dropLineEnd rest)
      | '[' :: rest => do
          let (path, rest) ← readHeader 1 rest
          readLines fuel path (← addHeader path entries) (← dropLineEnd rest)
      | rest => do
          let (path, rest) ← readKey rest.length rest
          let '=' :: rest := rest | none
          let (document, rest) ← readValue rest.length (dropSpaces rest)
          readLines fuel header (← addUnder header path document entries) (← dropLineEnd rest)

/-- Reads a text as a record. -/
def read? (text : String) : Option Document := do
  let cs := match text.toList with
    | c :: rest => if c.toNat = 0xFEFF then rest else c :: rest
    | [] => []
  let entries ← readLines (cs.length + 1) [] [] cs
  return .record (documentFields entries)

end MetricAlerts.Toml
