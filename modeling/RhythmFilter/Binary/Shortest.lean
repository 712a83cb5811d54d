import RhythmFilter.Binary.Basic
import RhythmFilter.Text.Integer

/-!
# Shortest decimals

A binary fraction is written with the fewest decimal digits to which it is the nearest binary fraction.
The digits are looked for among the multiples of one power of ten after another, from the place of
the first digit on: if a multiple will do at all, then so will one of the two next to the value.
-/

namespace RhythmFilter

namespace Binary

open Text

/-- The exact value as a multiple of a power of ten: the terms of a quotient. -/
def inTens (b : Binary) (exponent : Int) : Nat × Nat :=
  (b.units * Nat.pow 10 (-exponent).toNat, one * Nat.pow 10 exponent.toNat)

def ofTens? (coefficient : Nat) (exponent : Int) : Option Binary :=
  ofQuotient? (coefficient * Nat.pow 10 exponent.toNat) (Nat.pow 10 (-exponent).toNat)

def neighbour? (b : Binary) (exponent : Int) : Option Nat :=
  let (num, den) := b.inTens exponent
  [nearest num den, num / den, num / den + 1].find? fun n => ofTens? n exponent = some b

/-- The places before the decimal point; less than zero, the zeros that follow it. -/
def places (b : Binary) : Int :=
  ((digitsOfNat (b.units * Nat.pow 10 324 / one)).length : Int) - 324

/-- The coefficient and the exponent of the shortest decimal. Seventeen digits are always enough; the
exact value would be a decimal as well. -/
def shortest (b : Binary) : Nat × Int :=
  let found := (List.range 17).findSome? fun (behind : Nat) =>
    let exponent := b.places - 1 - behind
    (b.neighbour? exponent).map fun n => (n, exponent)
  found.getD (b.units * Nat.pow 5 1074, -1074)

end Binary

end RhythmFilter
