import MetricAlerts.Text.Numeral

/-!
# UUIDs

Identifiers of 128 bits. They are read with or without dashes, in braces or as a URN, and written
with lower-case digits in groups of 8, 4, 4, 4 and 12.
-/

namespace MetricAlerts

structure Uuid where
  text : String
deriving DecidableEq

namespace Uuid

def isHex (c : Char) : Bool :=
  Text.isDigit c || (97 ≤ c.toNat && c.toNat ≤ 102) || (65 ≤ c.toNat && c.toNat ≤ 70)

/-- The all-zero identifier. -/
def nil : Uuid := ⟨"00000000-0000-0000-0000-000000000000"⟩

/-- Inserts the four dashes into 32 digits. -/
def grouped (cs : List Char) : List Char :=
  cs.take 8 ++ '-' :: (cs.drop 8).take 4 ++ '-' :: (cs.drop 12).take 4 ++
    '-' :: (cs.drop 16).take 4 ++ '-' :: cs.drop 20

def hexDigit (n : UInt8) : Char :=
  Char.ofNat (if n < 10 then 48 + n.toNat else 87 + n.toNat)

def hexDigits (byte : UInt8) : List Char :=
  [hexDigit (byte / 16), hexDigit (byte % 16)]

/-- Makes an identifier of 16 random bytes: four of their bits tell that it is a random one, and two
that it follows the common layout. -/
def ofRandom (bytes : List UInt8) : Uuid :=
  let bytes := bytes.modify 6 fun byte => byte % 16 + 64
  let bytes := bytes.modify 8 fun byte => byte % 64 + 128
  ⟨String.ofList (grouped ((bytes.take 16).flatMap hexDigits))⟩

def ofDigits? (cs : List Char) : Option Uuid :=
  if cs.length = 32 && cs.all isHex then some ⟨String.ofList (grouped (cs.map Char.toLower))⟩
  else none

def ofGrouped? (cs : List Char) : Option Uuid :=
  let digits := cs.filter (· != '-')
  if cs.length = 36 ∧ cs = grouped digits then ofDigits? digits else none

def read? (s : String) : Option Uuid :=
  let cs := s.toList
  match cs with
  | '{' :: rest => if rest.getLast? = some '}' then ofGrouped? rest.dropLast else none
  | _ =>
      if cs.length = 32 then ofDigits? cs
      else if cs.length = 45 ∧ cs.take 9 = "urn:uuid:".toList then ofGrouped? (cs.drop 9)
      else ofGrouped? cs

end Uuid

end MetricAlerts
