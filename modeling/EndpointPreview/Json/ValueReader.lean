import EndpointPreview.Json.TextReader
import EndpointPreview.Json.NumberReader
/-!
JSON values: the head of a value, a value that is kept, and a value that is read past.
-/

namespace EndpointPreview.Json

def head : Reader Found := fun s =>
  match skipSpacing s with
  | ⟨[], _⟩ => .error .endOfText
  | ⟨c :: r, h⟩ =>
    let after : Rest s := ⟨r, h⟩
    match c with
    | 'n' => do
      let t ← word ['u', 'l', 'l'] r
      return (.null, after.andTail t)
    | 't' => do
      let t ← word ['r', 'u', 'e'] r
      return (.bool true, after.andTail t)
    | 'f' => do
      let t ← word ['a', 'l', 's', 'e'] r
      return (.bool false, after.andTail t)
    | '"' => do
      let (t, r') ← keptText r
      return (.text t, after.and r')
    | '[' => .ok (.list, after)
    | '{' => .ok (.object, after)
    | c =>
      if c = '-' ∨ c.isDigit then do
        let (n, r') ← keptNumber (c :: r)
        return (.number n, Tail.andRest ⟨c :: r, h⟩ r')
      else .error .malformed

/-- A value whose lists and objects may be nested to a depth. A key given twice keeps its first
place and takes the last value. -/
def value (depth : Nat) : Reader Json := fun s => do
  let (found, r) ← head s
  match found with
  | .null => return (.null, r)
  | .bool b => return (.bool b, r)
  | .number n => return (.number n, r)
  | .text t => return (.text t, r)
  | .list =>
    match depth with
    | 0 => .error .malformed
    | depth + 1 =>
      let (all, r') ← listBody (value depth) r.val
      return (.list all, r.and r')
  | .object =>
    match depth with
    | 0 => .error .malformed
    | depth + 1 =>
      let member (all : List (String × Json)) (k : String) :=
        .ok (Reader.map (Keyed.put k · all) (value depth))
      let (all, r') ← objectBody (key keptText) member [] r.val
      return (.object all, r.and r')

def skipNested (depth : Nat) : Reader Unit := fun s =>
  match depth, skipSpacing s with
  | _, ⟨[], _⟩ => .error .endOfText
  | 0, _ => .error .malformed
  | depth + 1, ⟨c :: r, h⟩ =>
    let after : Rest s := ⟨r, h⟩
    match c with
    | 'n' => do
      let t ← word ['u', 'l', 'l'] r
      return ((), after.andTail t)
    | 't' => do
      let t ← word ['r', 'u', 'e'] r
      return ((), after.andTail t)
    | 'f' => do
      let t ← word ['a', 'l', 's', 'e'] r
      return ((), after.andTail t)
    | '"' => do
      let (_, r') ← skippedText r
      return ((), after.and r')
    | '[' => do
      let (_, r') ← listBody (skipNested depth) r
      return ((), after.and r')
    | '{' => do
      let (_, r') ← objectBody (key skippedText) (fun _ _ => .ok (skipNested depth)) () r
      return ((), after.and r')
    | c =>
      if c = '-' ∨ c.isDigit then do
        let (_, r') ← skippedNumber (c :: r)
        return ((), Tail.andRest ⟨c :: r, h⟩ r')
      else .error .malformed

/-- Reads past a value of any nesting: it is never deeper than the text is long. -/
def skip : Reader Unit :=
  fun s => skipNested (s.length + 1) s

end EndpointPreview.Json
