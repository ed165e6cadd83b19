import MetricAlerts.Calendar.DayText
import MetricAlerts.Digest.Sha256

/-!
# Draws

The number that decides which message a user gets for a rule on a day. It is derived from those
three alone, so that an evaluation can be repeated, and it is spread evenly over 53 bits.
-/

namespace MetricAlerts.Draw

def utf8Bytes (s : String) : List UInt8 :=
  s.toByteArray.toList

/-- Set between the parts of what is hashed. -/
def separator : UInt8 := 0x1F

/-- What is hashed: user, rule and day, set apart by separators. -/
def seed (user rule : String) (day : Day) : List UInt8 :=
  utf8Bytes user ++ separator :: utf8Bytes rule ++ separator :: utf8Bytes day.text

def bigEndianValue (bytes : List UInt8) : Nat :=
  bytes.foldl (fun value byte => 256 * value + byte.toNat) 0

/-- The first 53 bits of a digest as a natural number. -/
def leadingBits (digest : List UInt8) : Nat :=
  bigEndianValue (digest.take 8) / Nat.pow 2 11

/-- Draws lie between zero, included, and one, excluded, in steps of one in this many. -/
def steps : Nat := Nat.pow 2 53

/-- The fraction that the leading bits of a digest make up. -/
def ofDigest (digest : List UInt8) : Float :=
  Float.ofNat (leadingBits digest) / Float.ofNat steps

def value (user rule : String) (day : Day) : Float :=
  ofDigest (Sha256.digest (seed user rule day))

end MetricAlerts.Draw
