import EndpointPreview.Json.Reader
import EndpointPreview.Number.Digits
/-!
JSON numbers. A whole number of 64 bits, signed or not, is kept as an integer, and every other
number is rounded to a binary number.
-/

namespace EndpointPreview.Json

def digits (atEnd : Fault) : Reader (List Char)
  | [] => .error atEnd
  | c :: r =>
    if c.isDigit then
      .ok (c :: r.takeWhile Char.isDigit, (Tail.dropWhile Char.isDigit r).past c)
    else .error .malformed

structure Numeral where
  negative : Bool
  whole : List Char
  fraction : Option (List Char)
  exponent : Option Int

def wholePart (atEnd : Fault) : Reader (List Char) := fun s => do
  let (ds, r) ← digits atEnd s
  match ds with
  | '0' :: _ :: _ => .error .malformed
  | _ => return (ds, r)

def fractionPart (atEnd : Fault) (s : List Char) :
    Except Fault (Option (List Char) × Tail s) :=
  match s with
  | '.' :: r => do
    let (ds, r') ← digits atEnd r
    return (some ds, (r'.past '.').tail)
  | s => .ok (none, .all s)

def minus (s : List Char) : Bool × Tail s :=
  match s with
  | '-' :: r => (true, (Rest.afterFirst '-' r).tail)
  | s => (false, .all s)

def exponentSign (s : List Char) : Bool × Tail s :=
  match s with
  | '+' :: r => (false, (Rest.afterFirst '+' r).tail)
  | s => minus s

def exponentPart (atEnd : Fault) (s : List Char) : Except Fault (Option Int × Tail s) :=
  match s with
  | [] => .ok (none, .all [])
  | c :: r =>
    if c = 'e' ∨ c = 'E' then do
      let (negative, t) := exponentSign r
      let (ds, r') ← digits atEnd t.val
      let size : Int := ofDigits 10 ds
      let value := if negative then -size else size
      return (some value, ((t.andRest r').past c).tail)
    else .ok (none, .all (c :: r))

/-- A number whose first character, a minus or a digit, has been seen. What is wrong where a digit
is wanted and the text ends is for the caller to say. -/
def numeral (atEnd : Fault) : Reader Numeral := fun s => do
  let (negative, t) := minus s
  let (whole, r) ← wholePart atEnd t.val
  let (fraction, t₁) ← fractionPart atEnd r.val
  let (exponent, t₂) ← exponentPart atEnd t₁.val
  return (⟨negative, whole, fraction, exponent⟩, ((t.andRest r).andTail t₁).andTail t₂)

/-- Integers lie between `-2 ^ 63` and `2 ^ 64`; a negative zero is not one of them. -/
def isInteger (n : Int) (negative : Bool) : Bool :=
  -(Int.pow 2 63) ≤ n && n < Int.pow 2 64 && !(negative && n == 0)

def Numeral.value? (x : Numeral) : Option Number :=
  let whole := ofDigits 10 x.whole
  let signed : Int := if x.negative then -whole else whole
  if x.fraction = none ∧ x.exponent = none ∧ isInteger signed x.negative then
    some (.integer signed)
  else
    let fraction := x.fraction.getD []
    let power := x.exponent.getD 0 - fraction.length
    (Binary64.ofDecimal? x.negative (ofDigits 10 (x.whole ++ fraction)) power).map .real

def keptNumber : Reader Number := fun s => do
  let (x, r) ← numeral .endOfText s
  match x.value? with
  | some n => return (n, r)
  | none => .error .malformed

def skippedNumber : Reader Unit :=
  Reader.map (fun _ => ()) (numeral .malformed)

end EndpointPreview.Json
