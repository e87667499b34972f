import EndpointPreview.Text.Printable
/-!
Quoted text for messages: what cannot be printed is written as an escape.
-/

namespace EndpointPreview.Text

def escapedForMessage (c : Char) : List Char :=
  match c with
  | '\x00' => ['\\', '0']
  | '\t' => ['\\', 't']
  | '\n' => ['\\', 'n']
  | '\r' => ['\\', 'r']
  | '"' => ['\\', '"']
  | '\\' => ['\\', '\\']
  | c =>
    if isPrintable c then [c]
    else ['\\', 'u', '\x7b'] ++ Nat.toDigits 16 c.toNat ++ ['\x7d']

def quotedForMessage (s : String) : String :=
  String.ofList ('"' :: (s.toList.flatMap escapedForMessage ++ ['"']))

end EndpointPreview.Text
