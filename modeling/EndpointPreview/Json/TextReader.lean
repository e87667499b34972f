import EndpointPreview.Json.Reader
import EndpointPreview.Number.Digits
/-!
JSON strings. A kept string must have its surrogates in pairs; of a skipped one only the shape
of the escapes matters.
-/

namespace EndpointPreview.Json

def byteCount (s : List Char) : Nat :=
  (String.ofList s).utf8ByteSize

/-- A wrong digit is noticed only where four bytes are left. -/
def notHex (s : List Char) : Fault :=
  if byteCount s < 4 then .endOfText else .malformed

def fourHexDigits : Reader Nat
  | a :: b :: c :: d :: r =>
    if [a, b, c, d].all isHexDigit then
      .ok (ofDigits 16 [a, b, c, d], (((Rest.afterFirst d r).past c).past b).past a)
    else .error (notHex (a :: b :: c :: d :: r))
  | s => .error (notHex s)

def isHighSurrogate (n : Nat) : Bool :=
  0xd800 ≤ n && n < 0xdc00

def isLowSurrogate (n : Nat) : Bool :=
  0xdc00 ≤ n && n < 0xe000

/-- A UTF-16 unit and, if it is the first half of a pair, the escape that completes it. -/
def unicodeEscape : Reader Char := fun s => do
  let (high, r) ← fourHexDigits s
  if isLowSurrogate high then .error .malformed
  else if isHighSurrogate high then
    let t ← word ['\\', 'u'] r.val
    let (low, r') ← fourHexDigits t.val
    if isLowSurrogate low then
      return (Char.ofNat (0x10000 + (high - 0xd800) * 0x400 + (low - 0xdc00)),
        (r.andTail t).and r')
    else .error .malformed
  else return (Char.ofNat high, r)

def shortEscape? : Char → Option Char
  | '"' => some '"'
  | '\\' => some '\\'
  | '/' => some '/'
  | 'b' => some '\x08'
  | 'f' => some '\x0c'
  | 'n' => some '\n'
  | 'r' => some '\r'
  | 't' => some '\t'
  | _ => none

def escape (unicode : Reader Char) : Reader Char
  | [] => .error .endOfText
  | c :: r =>
    if c = 'u' then do
      let (d, r') ← unicode r
      return (d, r'.past c)
    else match shortEscape? c with
      | some d => .ok (d, .afterFirst c r)
      | none => .error .malformed

def textChar (unicode : Reader Char) : Reader Char
  | [] => .error .endOfText
  | c :: r =>
    if c = '\\' then do
      let (d, r') ← escape unicode r
      return (d, r'.past c)
    else if c.toNat < 0x20 then .error .malformed
    else .ok (c, .afterFirst c r)

def textBody (unicode : Reader Char) : Reader (List Char) :=
  Rest.recurse fun s textBody =>
    match s with
    | [] => .error .endOfText
    | c :: r =>
      if c = '"' then .ok ([], .afterFirst c r)
      else do
        let (d, r₁) ← textChar unicode (c :: r)
        let (ds, r₂) ← textBody r₁
        return (d :: ds, r₁.and r₂)

def keptText : Reader String :=
  Reader.map String.ofList (textBody unicodeEscape)

/-- Reads past a string; what its escapes stand for is not looked at. -/
def skippedText : Reader String :=
  Reader.map String.ofList (textBody (Reader.map (fun _ => '?') fourHexDigits))

def key (body : Reader String) : Reader String := fun s => do
  let r ← mark '"' s
  let (k, r') ← body r.val
  return (k, r.and r')

end EndpointPreview.Json
