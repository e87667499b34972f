import EndpointPreview.ValueText.Literals
import EndpointPreview.Identifier
import EndpointPreview.Vocabulary
/-!
References in the text of a filter value: to a parameter, as `name`, `:name` or `{{ name }}`, and
to a function, in any case, with or without parentheses.
-/

namespace EndpointPreview.ValueText

def name? : List Char → Option (List Char × List Char)
  | [] => none
  | c :: s =>
    if isNameStart c then some (c :: s.takeWhile isNameRest, s.dropWhile isNameRest) else none

def braced? (s : List Char) : Option (List Char × List Char) := do
  let (name, r) ← name? (skipSpacing s)
  match skipSpacing r with
  | '}' :: '}' :: r => some (name, r)
  | _ => none

def reference? : List Char → Option (List Char × List Char)
  | '{' :: '{' :: s => braced? s
  | ':' :: s => name? s
  | s => name? s

def parameter? (s : String) : Option String := do
  let (name, r) ← reference? (skipSpacing s.toList)
  if skipSpacing r = [] then some (String.ofList name) else none

/-- What follows a word in small letters, whatever the case of the text is. -/
def afterWord? : (word s : List Char) → Option (List Char)
  | [], s => some s
  | _ :: _, [] => none
  | a :: word, c :: s => if c.toLower = a then afterWord? word s else none

def afterParentheses (s : List Char) : List Char :=
  match skipSpacing s with
  | '(' :: r =>
    match skipSpacing r with
    | ')' :: r => r
    | _ => s
  | _ => s

def function? (s : String) : Option Function :=
  Function.all.find? fun f =>
    match afterWord? f.word.toList (skipSpacing s.toList) with
    | some r => skipSpacing (afterParentheses r) = []
    | none => false

end EndpointPreview.ValueText
