import EndpointPreview.Number.Digits
import EndpointPreview.Number.Binary64
import EndpointPreview.Text.Rest
import EndpointPreview.Toml.Basic
/-!
Numbers, dates and spacing of TOML. A scanner takes them off the front of a text and leaves a
shorter one.
-/

namespace EndpointPreview.Toml

abbrev Scanner : Type := (s : List Char) → Option (Rest s)

abbrev Reader (α : Type) : Type := (s : List Char) → Option (α × Rest s)

def isSpace (c : Char) : Bool :=
  c == ' ' || c == '\t'

def isPlain (c : Char) : Bool :=
  c == '\t' || (' ' ≤ c && c != '\x7f')

def skipSpace (s : List Char) : Tail s :=
  .dropWhile isSpace s

def one (p : Char → Bool) : Scanner
  | [] => none
  | c :: s => if p c then some (.afterFirst c s) else none

def newline : Scanner
  | '\n' :: s => some (.afterFirst '\n' s)
  | '\r' :: '\n' :: s => some ((Rest.afterFirst '\n' s).past '\r')
  | _ => none

def Scanner.andThen (first second : Scanner) : Scanner := fun s => do
  let r ← first s
  let r' ← second r.val
  return r.and r'

def Scanner.orElse (first second : Scanner) : Scanner := fun s =>
  match first s with
  | some r => some r
  | none => second s

def Scanner.maybe (scan : Scanner) (s : List Char) : Tail s :=
  match scan s with
  | some r => r.tail
  | none => .all s

def Scanner.thenMaybe (first second : Scanner) : Scanner := fun s => do
  let r ← first s
  return r.andTail (second.maybe r.val)

def Scanner.afterMaybe (first second : Scanner) : Scanner := fun s => do
  let t := first.maybe s
  let r ← second t.val
  return t.andRest r

def moreDigits (p : Char → Bool) (s : List Char) : Tail s :=
  match s with
  | '_' :: c :: s =>
    if p c then (((moreDigits p s).past c).past '_').tail else .all ('_' :: c :: s)
  | c :: s =>
    if p c then ((moreDigits p s).past c).tail else .all (c :: s)
  | [] => .all []

def digits (p : Char → Bool) : Scanner := fun s => do
  let r ← one p s
  return r.andTail (moreDigits p r.val)

def char (c : Char) : Scanner :=
  one (· == c)

def word : List Char → Scanner
  | [] => fun _ => none
  | [c] => char c
  | c :: w => (char c).andThen (word w)

def sign : Scanner :=
  one fun c => c == '+' || c == '-'

def whole : Scanner :=
  sign.afterMaybe ((char '0').orElse (digits Char.isDigit))

def fraction : Scanner :=
  (char '.').andThen (digits Char.isDigit)

def exponent : Scanner :=
  ((one fun c => c == 'e' || c == 'E').thenMaybe sign).andThen (digits Char.isDigit)

def float : Scanner :=
  whole.andThen (exponent.orElse (fraction.thenMaybe exponent))

def special : Scanner :=
  sign.afterMaybe ((word ['i', 'n', 'f']).orElse (word ['n', 'a', 'n']))

def scanned (s : List Char) (r : Rest s) : List Char :=
  (s.take (s.length - r.val.length)).filter (· != '_')

def signed (cs : List Char) : Bool × List Char :=
  match cs with
  | '-' :: ds => (true, ds)
  | '+' :: ds => (false, ds)
  | ds => (false, ds)

def exponentValue (cs : List Char) : Int :=
  let (negative, ds) := signed cs
  if negative then -(ofDigits 10 ds : Int) else ofDigits 10 ds

/-- Whether the text of a float does not exceed the greatest binary number. -/
def isFinite (cs : List Char) : Bool :=
  let (negative, cs) := signed cs
  let isMark (c : Char) : Bool := c == 'e' || c == 'E'
  let mantissa := cs.takeWhile (!isMark ·)
  let wholeDigits := mantissa.takeWhile (· != '.')
  let fractionDigits := (mantissa.dropWhile (· != '.')).drop 1
  let power := exponentValue ((cs.dropWhile (!isMark ·)).drop 1)
  negative || (Binary64.ofDecimal? false (ofDigits 10 (wholeDigits ++ fractionDigits))
    (power - fractionDigits.length)).isSome

/-- Whether a whole number has at most 64 bits with its sign. -/
def fits (cs : List Char) : Bool :=
  let (negative, ds) := signed cs
  ofDigits 10 ds < Nat.pow 2 63 + (if negative then 1 else 0)

def based (mark : Char) (base : Nat) (p : Char → Bool) : Scanner := fun s => do
  let r ← ((word ['0', mark]).andThen (digits p)) s
  if ofDigits base ((scanned s r).drop 2) < Nat.pow 2 63 then some r else none

def Scanner.checked (scan : Scanner) (test : List Char → Bool) : Scanner := fun s => do
  let r ← scan s
  if test (scanned s r) then some r else none

def fixedDigits : Nat → Nat → List Char → Option (Nat × List Char)
  | 0, n, s => some (n, s)
  | k + 1, n, c :: s =>
    if c.isDigit then fixedDigits k (10 * n + (digitValue? c).getD 0) s else none
  | _ + 1, _, [] => none

theorem fixedDigits_length {k n m : Nat} {s r : List Char} (h : fixedDigits k n s = some (m, r)) :
    r.length + k = s.length := by
  induction k generalizing n s with
  | zero => cases h; rfl
  | succ k ih =>
    cases s with
    | nil => cases h
    | cons c s =>
      simp only [fixedDigits] at h
      split at h
      · have := ih h
        simp only [List.length_cons]
        omega
      · cases h

theorem length_lt_of_fixedDigits {k n m : Nat} {s r : List Char}
    (h : fixedDigits (k + 1) n s = some (m, r)) : r.length < s.length := by
  have := fixedDigits_length h
  omega

def fixed (more : Nat) : Reader Nat := fun s =>
  match h : fixedDigits (more + 1) 0 s with
  | some (n, r) => some (n, ⟨r, length_lt_of_fixedDigits h⟩)
  | none => none

def twoDigits (low high : Nat) : Scanner := fun s => do
  let (n, r) ← fixed 1 s
  if low ≤ n ∧ n ≤ high then some r else none

def isLeap (year : Nat) : Bool :=
  year % 4 == 0 && (year % 100 != 0 || year % 400 == 0)

def daysIn (year month : Nat) : Nat :=
  if month = 2 then if isLeap year then 29 else 28
  else if month = 4 ∨ month = 6 ∨ month = 9 ∨ month = 11 then 30
  else 31

def fullDate : Scanner := fun s => do
  let (year, r₁) ← fixed 3 s
  let r₂ ← char '-' r₁.val
  let (month, r₃) ← fixed 1 r₂.val
  let r₄ ← char '-' r₃.val
  let (day, r₅) ← fixed 1 r₄.val
  if 1 ≤ month ∧ month ≤ 12 ∧ 1 ≤ day ∧ day ≤ daysIn year month then
    some ((((r₁.and r₂).and r₃).and r₄).and r₅)
  else none

def time : Scanner :=
  ((((twoDigits 0 23).andThen (char ':')).andThen (twoDigits 0 59)).andThen (char ':')).andThen
    ((twoDigits 0 60).thenMaybe ((char '.').andThen fun s => do
      let r ← one Char.isDigit s
      return r.andTail (.dropWhile Char.isDigit r.val)))

def offset : Scanner :=
  (one fun c => c == 'Z' || c == 'z').orElse
    (((sign.andThen (twoDigits 0 23)).andThen (char ':')).andThen (twoDigits 0 59))

def date : Scanner :=
  (fullDate.thenMaybe
    (((one fun c => c == 'T' || c == 't' || c == ' ').andThen time).thenMaybe offset)).orElse time

def scalar : Reader Scalar := fun s =>
  let kinds : List (Scalar × Scanner) := [
    (.date, date),
    (.float, float.checked isFinite),
    (.float, special),
    (.integer, based 'x' 16 isHexDigit),
    (.integer, based 'o' 8 fun c => '0' ≤ c ∧ c ≤ '7'),
    (.integer, based 'b' 2 fun c => c == '0' || c == '1'),
    (.integer, whole.checked fits),
    (.boolean, word ['t', 'r', 'u', 'e']),
    (.boolean, word ['f', 'a', 'l', 's', 'e'])]
  kinds.findSome? fun (kind, scan) => (scan s).map fun r => (kind, r)

end EndpointPreview.Toml
