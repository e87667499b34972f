/-!
Finite binary numbers with 53 significant digits, and the rounding of a rational number to the
nearest of them.
-/

namespace EndpointPreview

/-- The number `± significand * 2 ^ exponent`. -/
structure Binary64 where
  negative : Bool
  significand : Nat
  exponent : Int
deriving DecidableEq, Repr

namespace Binary64

def leastExponent : Int := -1074

def greatestExponent : Int := 971

def zero (negative : Bool) : Binary64 :=
  ⟨negative, 0, leastExponent⟩

def magnitude (x : Binary64) : Rat :=
  x.significand * (2 : Rat) ^ x.exponent

/-- The nearest natural number to one that is not negative; a half goes to the even neighbour. -/
def nearest (x : Rat) : Nat :=
  let low := x.floor.toNat
  let rest := x - low
  if rest < 1 / 2 ∨ (rest = 1 / 2 ∧ low % 2 = 0) then low else low + 1

def binaryExponent (x : Rat) : Int :=
  let e : Int := (x.num.natAbs.log2 : Int) - (x.den.log2 : Int)
  if x < (2 : Rat) ^ e then e - 1 else e

/-- Rounds `± x`, where `x` is not negative; there is no answer when `x` is too large. -/
def ofMagnitude? (negative : Bool) (x : Rat) : Option Binary64 :=
  if x = 0 then some (zero negative)
  else
    let exponent := max (binaryExponent x - 52) leastExponent
    let significand := nearest (x / (2 : Rat) ^ exponent)
    let rounded : Binary64 :=
      if significand = Nat.pow 2 53 then ⟨negative, Nat.pow 2 52, exponent + 1⟩
      else ⟨negative, significand, exponent⟩
    if greatestExponent < rounded.exponent then none else some rounded

def digitCount (n : Nat) : Nat :=
  (Nat.toDigits 10 n).length

/-- Rounds `± digits * 10 ^ power`. Numbers from `10 ^ 310` are too large and numbers below
`10 ^ -330` round to zero, whatever their digits are. -/
def ofDecimal? (negative : Bool) (digits : Nat) (power : Int) : Option Binary64 :=
  let size := (digitCount digits : Int) + power
  if digits = 0 ∨ size < -330 then some (zero negative)
  else if 310 < size then none
  else ofMagnitude? negative (digits * (10 : Rat) ^ power)

end Binary64

end EndpointPreview
