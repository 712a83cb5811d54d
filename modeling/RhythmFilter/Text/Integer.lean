/-!
# Whole numbers in decimal

Reading takes an optional sign and ASCII digits and refuses a value outside the signed 64-bit range.
Writing uses no sign but a minus and no leading zero.
-/

namespace RhythmFilter.Text

def isDigit (c : Char) : Bool := decide ('0' ≤ c) && decide (c ≤ '9')

def digitValue (c : Char) : Nat := c.toNat - '0'.toNat

def digitChar (n : Nat) : Char := Char.ofNat ('0'.toNat + n)

def natOfDigits (s : List Char) : Nat := s.foldl (fun n c => 10 * n + digitValue c) 0

/-- The digits of a number, most significant first. -/
def digitsOfNat (n : Nat) : List Char :=
  if n < 10 then [digitChar n] else digitsOfNat (n / 10) ++ [digitChar (n % 10)]
termination_by n
decreasing_by omega

/-- The value of one or more digits. -/
def readNat? (s : List Char) : Option Nat :=
  if s ≠ [] ∧ s.all isDigit then some (natOfDigits s) else none

def readInt? : List Char → Option Int
  | '+' :: s => (readNat? s).map Int.ofNat
  | '-' :: s => (readNat? s).map fun n => -(n : Int)
  | s => (readNat? s).map Int.ofNat

/-- The number fits into 64 bits with its sign. -/
def IsInt64 (i : Int) : Prop := -0x8000000000000000 ≤ i ∧ i < 0x8000000000000000

instance (i : Int) : Decidable (IsInt64 i) := inferInstanceAs (Decidable (_ ∧ _))

def readInt64? (s : List Char) : Option Int := (readInt? s).filter fun i => IsInt64 i

def writeInt : Int → List Char
  | .ofNat n => digitsOfNat n
  | .negSucc n => '-' :: digitsOfNat (n + 1)

end RhythmFilter.Text
