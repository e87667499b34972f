import EndpointPreview.Number.Binary64
/-!
The decimal text of a binary number: the fewest digits that read back as the same number, and
of those the nearest.
-/

namespace EndpointPreview.Binary64

def decimalExponent (x : Rat) : Int :=
  if 1 ≤ x then (digitCount x.floor.toNat : Int) - 1
  else -(digitCount ((1 / x).ceil.toNat - 1) : Int)

/-- Whether a magnitude rounds to `x`: half a step to either side, a quarter step below a power
of two, and the bounds themselves if the significand is even. -/
def readsBack (x : Binary64) (y : Rat) : Bool :=
  let step := (2 : Rat) ^ x.exponent
  let below :=
    if x.significand = Nat.pow 2 52 ∧ leastExponent < x.exponent then step / 4 else step / 2
  let low := x.magnitude - below
  let high := x.magnitude + step / 2
  if x.significand % 2 = 0 then low ≤ y ∧ y ≤ high else low < y ∧ y < high

/-- The nearer neighbour of `x` among the multiples of `10 ^ power`, if it reads back. -/
def onGrid? (x : Binary64) (power : Int) : Option Nat :=
  let unit := (10 : Rat) ^ power
  let low := (x.magnitude / unit).floor.toNat
  let distance (d : Nat) : Rat := (x.magnitude - d * unit).abs
  match x.readsBack (low * unit), x.readsBack ((low + 1 : Nat) * unit) with
  | false, false => none
  | true, false => some low
  | false, true => some (low + 1)
  | true, true =>
    if distance low < distance (low + 1) ∨ (distance low = distance (low + 1) ∧ low % 2 = 0)
    then some low else some (low + 1)

def shortest (x : Binary64) : Nat × Int :=
  let top := decimalExponent x.magnitude
  let found := (List.range 17).findSome? fun (k : Nat) =>
    let power := top - k
    (x.onGrid? power).map fun d => (d, power)
  found.getD (0, 0)

def exponentText (e : Int) : List Char :=
  (if e < 0 then '-' else '+') :: Nat.toDigits 10 e.natAbs

/-- Digits with the decimal point before position `point`: positional while the leading digit
counts from `10 ^ -5` to `10 ^ 15`, scientific beyond. -/
def place (digits : List Char) (point : Int) : List Char :=
  if 0 < point ∧ point ≤ 16 then
    let whole := point.toNat
    let fraction := digits.drop whole
    digits.take whole ++ List.replicate (whole - digits.length) '0' ++
      '.' :: (if fraction = [] then ['0'] else fraction)
  else if -5 < point ∧ point ≤ 0 then
    ['0', '.'] ++ List.replicate (-point).toNat '0' ++ digits
  else
    let fraction := digits.drop 1
    digits.take 1 ++ (if fraction = [] then [] else '.' :: fraction) ++
      'e' :: exponentText (point - 1)

def chars (x : Binary64) : List Char :=
  let sign := if x.negative then ['-'] else []
  if x.significand = 0 then sign ++ ['0', '.', '0']
  else
    let (digits, power) := x.shortest
    let all := Nat.toDigits 10 digits
    let kept := (all.reverse.dropWhile (· == '0')).reverse
    sign ++ place kept (all.length + power)

end EndpointPreview.Binary64
