import RhythmFilter.Binary.Shortest

/-!
# Numbers in JSON texts

A whole number that fits into 64 bits, with or without a sign, is kept as an integer. Any other
numeral is kept as a binary fraction and is always written with a point, so that the two kinds stay
apart when the text is read again.
-/

namespace RhythmFilter.Json

open Text

inductive Number where
  | integer (value : Int)
  | fraction (negative : Bool) (magnitude : Binary)
  deriving DecidableEq, Repr

namespace Number

def FitsWord (i : Int) : Prop := -0x8000000000000000 ≤ i ∧ i < 0x10000000000000000

instance (i : Int) : Decidable (FitsWord i) := inferInstanceAs (Decidable (_ ∧ _))

/-- Goes on from `n` with one digit after another, while the number fits into 64 bits; gives the number
and the digits that are left. -/
def takeWord (n : Nat) : List Char → Nat × List Char
  | [] => (n, [])
  | c :: s =>
    let next := 10 * n + digitValue c
    if next < 2 ^ 64 then takeWord next s else (n, c :: s)

/-- The coefficient and the exponent that the digits before and after the point make. The digits from
the first that does not fit count as zeros, before the point and again behind it. -/
def coefficient (whole behind : List Char) : Nat × Int :=
  let (n, spare) := takeWord 0 whole
  let (n, rest) := takeWord n behind
  (n, spare.length + rest.length - behind.length)

/-- The number of a numeral: its sign, the digits before and after the point, and its power of ten.
Minus zero is no integer. A numeral can be too large for a number. -/
def ofNumeral? (negative : Bool) (whole : List Char) (fraction : Option (List Char))
    (power : Option Int) : Option Number :=
  let value : Int := if negative then -(natOfDigits whole : Int) else natOfDigits whole
  if fraction = none ∧ power = none ∧ FitsWord value ∧ ¬(negative = true ∧ value = 0) then
    some (.integer value)
  else
    let (n, exponent) := coefficient whole (fraction.getD [])
    (Binary.ofDecimal? n (exponent + power.getD 0)).map (.fraction negative)

def zeros (n : Nat) : List Char := List.replicate n '0'

/-- The digits `ds · 10 ^ exponent`, with the point in its place if at most sixteen digits precede it
and at most four zeros follow it at once, and with a power of ten otherwise. -/
def placePoint (ds : List Char) (exponent : Int) : List Char :=
  let place : Int := ds.length + exponent
  if 0 ≤ exponent ∧ place ≤ 16 then ds ++ zeros exponent.toNat ++ ['.', '0']
  else if 0 < place ∧ place ≤ 16 then ds.take place.toNat ++ '.' :: ds.drop place.toNat
  else if -5 < place ∧ place ≤ 0 then ['0', '.'] ++ zeros (-place).toNat ++ ds
  else
    let behind := if ds.length ≤ 1 then ['0'] else ds.drop 1
    ds.take 1 ++ '.' :: behind ++ 'e' :: writeInt (place - 1)

def writeFraction (b : Binary) : List Char :=
  let (n, exponent) := b.shortest
  let ds := digitsOfNat n
  let kept := (ds.reverse.dropWhile (· = '0')).reverse
  if kept = [] then placePoint ['0'] 0
  else placePoint kept (exponent + ds.length - kept.length)

def write : Number → List Char
  | .integer i => writeInt i
  | .fraction negative b => (if negative then ['-'] else []) ++ writeFraction b

end Number

end RhythmFilter.Json
