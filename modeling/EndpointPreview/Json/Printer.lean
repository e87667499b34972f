import EndpointPreview.Json.Basic
import EndpointPreview.Number.Shortest
/-!
JSON text: compact on one line, or laid out with two spaces to a level.
-/

namespace EndpointPreview.Json

def hexDigit (n : Nat) : Char :=
  Nat.digitChar (n % 16)

def escaped (c : Char) : List Char :=
  match c with
  | '"' => ['\\', '"']
  | '\\' => ['\\', '\\']
  | '\x08' => ['\\', 'b']
  | '\t' => ['\\', 't']
  | '\n' => ['\\', 'n']
  | '\x0c' => ['\\', 'f']
  | '\r' => ['\\', 'r']
  | c =>
    if c.toNat < 0x20 then ['\\', 'u', '0', '0', hexDigit (c.toNat / 16), hexDigit c.toNat]
    else [c]

def quoted (s : String) : List Char :=
  '"' :: (s.toList.flatMap escaped ++ ['"'])

def integerChars (n : Int) : List Char :=
  if n < 0 then '-' :: Nat.toDigits 10 n.natAbs else Nat.toDigits 10 n.natAbs

def numberChars : Number → List Char
  | .integer n => integerChars n
  | .real x => x.chars

mutual

def chars : Json → List Char
  | .null => ['n', 'u', 'l', 'l']
  | .bool true => ['t', 'r', 'u', 'e']
  | .bool false => ['f', 'a', 'l', 's', 'e']
  | .number n => numberChars n
  | .text s => quoted s
  | .list [] => ['[', ']']
  | .list (item :: items) => '[' :: (item.chars ++ itemChars items)
  | .object [] => ['\x7b', '\x7d']
  | .object ((key, value) :: members) =>
    '\x7b' :: (quoted key ++ ':' :: (value.chars ++ memberChars members))

def itemChars : List Json → List Char
  | [] => [']']
  | item :: items => ',' :: (item.chars ++ itemChars items)

def memberChars : List (String × Json) → List Char
  | [] => ['\x7d']
  | (key, value) :: members =>
    ',' :: (quoted key ++ ':' :: (value.chars ++ memberChars members))

end

def compact (j : Json) : String :=
  String.ofList j.chars

def newline (level : Nat) : List Char :=
  '\n' :: List.replicate (2 * level) ' '

mutual

def laidOut (level : Nat) : Json → List Char
  | .list (item :: items) =>
    '[' :: (newline (level + 1) ++ item.laidOut (level + 1) ++ laidOutItems level items)
  | .object ((key, value) :: members) =>
    '\x7b' :: (newline (level + 1) ++ quoted key ++ [':', ' '] ++ value.laidOut (level + 1) ++
      laidOutMembers level members)
  | .list [] => ['[', ']']
  | .object [] => ['\x7b', '\x7d']
  | .null => ['n', 'u', 'l', 'l']
  | .bool true => ['t', 'r', 'u', 'e']
  | .bool false => ['f', 'a', 'l', 's', 'e']
  | .number n => numberChars n
  | .text s => quoted s

def laidOutItems (level : Nat) : List Json → List Char
  | [] => newline level ++ [']']
  | item :: items =>
    ',' :: (newline (level + 1) ++ item.laidOut (level + 1) ++ laidOutItems level items)

def laidOutMembers (level : Nat) : List (String × Json) → List Char
  | [] => newline level ++ ['\x7d']
  | (key, value) :: members =>
    ',' :: (newline (level + 1) ++ quoted key ++ [':', ' '] ++ value.laidOut (level + 1) ++
      laidOutMembers level members)

end

def pretty (j : Json) : String :=
  String.ofList (j.laidOut 0)

end EndpointPreview.Json
