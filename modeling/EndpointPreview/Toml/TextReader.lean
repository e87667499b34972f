import EndpointPreview.Toml.Scanner
/-!
Strings and keys of TOML: plain or literal, on one line or on many.
-/

namespace EndpointPreview.Toml

def shortEscape? : Char → Option Char
  | 'b' => some '\x08'
  | 't' => some '\t'
  | 'n' => some '\n'
  | 'f' => some '\x0c'
  | 'r' => some '\r'
  | '"' => some '"'
  | '\\' => some '\\'
  | _ => none

def codePoint? (n : Nat) : Option Char :=
  if h : n.isValidChar then some (Char.ofNatAux n h) else none

def hexEscape (count : Nat) (s : List Char) : Option (Char × Tail s) :=
  let ds := s.take count
  if ds.length = count ∧ ds.all isHexDigit then
    (codePoint? (ofDigits 16 ds)).map fun c => (c, .drop count s)
  else none

def escape : Reader Char
  | [] => none
  | c :: s =>
    if c = 'u' ∨ c = 'U' then do
      let (d, t) ← hexEscape (if c = 'u' then 4 else 8) s
      return (d, t.past c)
    else (shortEscape? c).map fun d => (d, .afterFirst c s)

def textChar (escapes : Bool) : Reader Char
  | [] => none
  | c :: s =>
    if escapes ∧ c = '\\' then do
      let (d, r) ← escape s
      return (d, r.past c)
    else if isPlain c then some (c, .afterFirst c s)
    else none

def lineBody (quote : Char) (escapes : Bool) : Reader (List Char) :=
  Rest.recurse fun s lineBody =>
    match s with
    | [] => none
    | c :: r =>
      if c = quote then some ([], .afterFirst c r)
      else do
        let (d, r₁) ← textChar escapes (c :: r)
        let (ds, r₂) ← lineBody r₁
        return (d :: ds, r₁.and r₂)

/-- The closing quotes of a string on many lines. Up to two quotes before the last three belong
to the string. -/
def closing (quote : Char) (s : List Char) : Option (List Char × Rest s) :=
  match s with
  | [] => none
  | c :: r =>
    let run := ((c :: r).takeWhile (· == quote)).length
    if 3 ≤ run then
      let kept := min (run - 3) 2
      some (List.replicate kept quote, (Tail.drop (kept + 2) r).past c)
    else none

def lineSpace (s : List Char) : Tail s :=
  match s with
  | ' ' :: s => ((lineSpace s).past ' ').tail
  | '\t' :: s => ((lineSpace s).past '\t').tail
  | '\n' :: s => ((lineSpace s).past '\n').tail
  | '\r' :: '\n' :: s => (((lineSpace s).past '\n').past '\r').tail
  | s => .all s

def joinedLine : Scanner := fun s => do
  let t := skipSpace s
  let r ← newline t.val
  return (t.andRest r).andTail (lineSpace r.val)

/-- A character of a string on many lines, where a line ending counts as a line feed and a joined
line as nothing. -/
def manyChar (escapes : Bool) : Reader (Option Char) := fun s =>
  match newline s with
  | some r => some (some '\n', r)
  | none =>
    match s with
    | [] => none
    | c :: r =>
      match if escapes ∧ c = '\\' then joinedLine r else none with
      | some r' => some (none, r'.past c)
      | none => (textChar escapes (c :: r)).map fun (d, r') => (some d, r')

def manyBody (quote : Char) (escapes : Bool) : Reader (List Char) :=
  Rest.recurse fun s manyBody =>
    match closing quote s with
    | some found => some found
    | none => do
      let (d, r₁) ← manyChar escapes s
      let (ds, r₂) ← manyBody r₁
      return (d.toList ++ ds, r₁.and r₂)

def lineText : Reader (List Char)
  | '"' :: s => (lineBody '"' true s).map fun (cs, r) => (cs, r.past '"')
  | '\'' :: s => (lineBody '\'' false s).map fun (cs, r) => (cs, r.past '\'')
  | _ => none

def manyText (quote : Char) : Reader (List Char) := fun s => do
  let r ← ((word [quote, quote, quote]).thenMaybe newline) s
  let (cs, r') ← manyBody quote (quote == '"') r.val
  return (cs, r.and r')

def text : Reader String := fun s =>
  let opening := s.take 3
  let read :=
    if opening = ['"', '"', '"'] then manyText '"'
    else if opening = ['\'', '\'', '\''] then manyText '\''
    else lineText
  (read s).map fun (cs, r) => (String.ofList cs, r)

def isBare (c : Char) : Bool :=
  c.isAlphanum || c == '_' || c == '-'

def bareKey : Reader (List Char)
  | [] => none
  | c :: s =>
    if isBare c then some (c :: s.takeWhile isBare, (Tail.dropWhile isBare s).past c) else none

def simpleKey : Reader String := fun s => do
  let t := skipSpace s
  let (cs, r) ← (lineText t.val).or (bareKey t.val)
  return (String.ofList cs, (t.andRest r).andTail (skipSpace r.val))

/-- Keys joined by dots, of which the last stands apart. There are no more of them than a
number. -/
def dottedKey (atMost : Nat) (s : List Char) : Option ((List String × String) × Rest s) :=
  match atMost with
  | 0 => none
  | atMost + 1 => do
    let (key, r) ← simpleKey s
    match r with
    | ⟨'.' :: r, h⟩ =>
      let ((path, last), r') ← dottedKey atMost r
      return ((key :: path, last), Rest.and ⟨'.' :: r, h⟩ (r'.past '.'))
    | r => return (([], key), r)

def greatestDepth : Nat := 79

def fullKey : Reader (List String × String) :=
  dottedKey greatestDepth

end EndpointPreview.Toml
