/-!
Percent encoding: every byte of a character that is not unreserved becomes a percent sign and two
hexadecimal digits.
-/

namespace EndpointPreview.Text

def isUnreserved (c : Char) : Bool :=
  c.isAlphanum || c == '-' || c == '_' || c == '.' || c == '~'

def capitalHexDigit (n : Nat) : Char :=
  (Nat.digitChar (n % 16)).toUpper

def percentByte (b : UInt8) : List Char :=
  ['%', capitalHexDigit (b.toNat / 16), capitalHexDigit b.toNat]

def percentEncode (c : Char) : List Char :=
  if isUnreserved c then [c] else (String.utf8EncodeChar c).flatMap percentByte

end EndpointPreview.Text
