/-!
# Binary fractions

A binary fraction is a multiple of 2^-1074 that lies below 2^1024 and has at most 53 significant bits.
It is counted in units of 2^-1074. `ofQuotient?` takes a quotient to the nearest binary fraction,
and of two that are equally near to the one with the even last bit; products and quotients are exact up
to that one rounding.
-/

namespace RhythmFilter

namespace Binary

/-- The whole number nearest to a quotient, the even one if it lies halfway. -/
def nearest (num den : Nat) : Nat :=
  let rest := num % den
  if 2 * rest < den ∨ 2 * rest = den ∧ num / den % 2 = 0 then num / den else num / den + 1

/-- The distance of binary fractions at so many units: 53 bits count from the first one. -/
def spacing (units : Nat) : Nat := Nat.pow 2 (units.log2 - 52)

def roundUnits (num den : Nat) : Nat :=
  let step := spacing (num / den)
  step * nearest num (den * step)

theorem nearest_le (num den : Nat) : nearest num den ≤ num / den + 1 := by
  simp only [nearest]
  split <;> omega

theorem spacing_dvd_roundUnits (num den : Nat) :
    spacing (roundUnits num den) ∣ roundUnits num den := by
  simp only [roundUnits]
  generalize hm : nearest num (den * spacing (num / den)) = m
  have hle : m ≤ 2 ^ 53 := by
    have hn := nearest_le num (den * spacing (num / den))
    rw [hm, ← Nat.div_div_eq_div_mul] at hn
    have hlt : num / den / spacing (num / den) < 2 ^ 53 := by
      rw [spacing, Nat.pow_eq, Nat.div_lt_iff_lt_mul (Nat.two_pow_pos _), ← Nat.pow_add]
      exact Nat.lt_of_lt_of_le Nat.lt_log2_self (Nat.pow_le_pow_right (by decide) (by omega))
    omega
  simp only [spacing, Nat.pow_eq]
  generalize (num / den).log2 - 52 = k
  rcases Nat.lt_or_eq_of_le hle with hlt | rfl
  · refine Nat.dvd_trans (Nat.pow_dvd_pow 2 ?_) (Nat.dvd_mul_right (2 ^ k) m)
    rcases Nat.eq_zero_or_pos m with rfl | hpos
    · simp
    · have hne : 2 ^ k * m ≠ 0 := Nat.ne_of_gt (Nat.mul_pos (Nat.two_pow_pos k) hpos)
      have : (2 ^ k * m).log2 < k + 53 := by
        rw [Nat.log2_lt hne, Nat.pow_add]
        exact Nat.mul_lt_mul_of_pos_left hlt (Nat.two_pow_pos k)
      omega
  · rw [← Nat.pow_add, Nat.log2_two_pow]
    exact Nat.pow_dvd_pow 2 (by omega)

def one : Nat := Nat.pow 2 1074

/-- The units of 2^1024. -/
def bound : Nat := Nat.pow 2 2098

end Binary

structure Binary where
  units : Nat
  units_lt : units < Binary.bound
  spacing_dvd : Binary.spacing units ∣ units
  deriving DecidableEq, Repr

namespace Binary

def ofQuotient? (num den : Nat) : Option Binary :=
  if h : roundUnits (num * one) den < bound then
    some ⟨roundUnits (num * one) den, h, spacing_dvd_roundUnits ..⟩
  else none

def mul? (a b : Binary) : Option Binary := ofQuotient? (a.units * b.units) (one * one)

def div? (a b : Binary) : Option Binary := ofQuotient? a.units b.units

/-! ## Decimals -/

def maxPower : Nat := 308

def tenPower? (n : Nat) : Option Binary := ofQuotient? (Nat.pow 10 n) 1

def scaleUp? (b : Binary) (n : Nat) : Option Binary :=
  if b.units = 0 then some b
  else if n ≤ maxPower then do b.mul? (← tenPower? n)
  else none

/-- Divided by a rounded power of ten, a high one in several steps. -/
def scaleDown? (b : Binary) (n : Nat) : Option Binary :=
  if b.units = 0 then some b
  else if n ≤ maxPower then do b.div? (← tenPower? n)
  else do scaleDown? (← b.div? (← tenPower? maxPower)) (n - maxPower)
termination_by n
decreasing_by
  simp only [maxPower] at *
  omega

/-- The binary fraction for `coefficient · 10 ^ exponent`, where the coefficient and the power of ten are
rounded first and then what comes of the two. So it is near that number and need not be nearest. -/
def ofDecimal? (coefficient : Nat) (exponent : Int) : Option Binary := do
  let b ← ofQuotient? coefficient 1
  if 0 ≤ exponent then b.scaleUp? exponent.toNat else b.scaleDown? (-exponent).toNat

end Binary

end RhythmFilter
