import EndpointPreview.Json.Fault
import EndpointPreview.Text.Blank
import EndpointPreview.Text.Rest
/-!
Readers take a value off the front of a text. What they leave is shorter than what they got, so
lists and objects are read by recursion on the text.
-/

namespace EndpointPreview.Json

abbrev Reader (α : Type) : Type :=
  (s : List Char) → Except Fault (α × Rest s)

def Reader.run (read : Reader α) (s : List Char) : Except Fault (α × List Char) :=
  (read s).map fun (a, r) => (a, r.val)

def Reader.map (f : α → β) (read : Reader α) : Reader β :=
  fun s => (read s).map fun (a, r) => (f a, r)

def skipSpacing (s : List Char) : Tail s :=
  .dropWhile Text.isSpacing s

def word (w : List Char) (s : List Char) : Except Fault (Tail s) :=
  match w, s with
  | [], s => .ok (.all s)
  | _ :: _, [] => .error .endOfText
  | a :: w, c :: s =>
    if a = c then do
      let t ← word w s
      return (t.past c).tail
    else .error .malformed

def mark (wanted : Char) (s : List Char) : Except Fault (Rest s) :=
  match skipSpacing s with
  | ⟨[], _⟩ => .error .endOfText
  | ⟨c :: r, h⟩ => if c = wanted then .ok ⟨r, h⟩ else .error .malformed

def another (close : Char) : Reader Bool := fun s =>
  match skipSpacing s with
  | ⟨[], _⟩ => .error .endOfText
  | ⟨c :: r, h⟩ =>
    if c = close then .ok (false, ⟨r, h⟩)
    else if c = ',' then .ok (true, ⟨r, h⟩)
    else .error .malformed

def items (item : Reader α) : Reader (List α) :=
  Rest.recurse fun s items => do
    let (a, r₁) ← item s
    let (more, r₂) ← another ']' r₁.val
    let r := r₁.and r₂
    if more then
      let (as, r') ← items r
      return (a :: as, r.and r')
    else return ([a], r)

def listBody (item : Reader α) : Reader (List α) := fun s =>
  match skipSpacing s with
  | ⟨[], _⟩ => .error .endOfText
  | ⟨c :: r, h⟩ =>
    if c = ']' then .ok ([], ⟨r, h⟩)
    else do
      let (as, r') ← items item (c :: r)
      return (as, Tail.andRest ⟨c :: r, h⟩ r')

/-- One member or more, up to the closing brace. A key says how its value is read and what has
then been gathered. -/
def members (key : Reader String) (value : σ → String → Except Fault (Reader σ)) :
    (s : List Char) → σ → Except Fault (σ × Rest s) :=
  Rest.recurse fun s members gathered => do
    let (k, r₁) ← key s
    let read ← value gathered k
    let r₂ ← mark ':' r₁.val
    let (gathered, r₃) ← read r₂.val
    let (more, r₄) ← another '}' r₃.val
    let r := ((r₁.and r₂).and r₃).and r₄
    if more then
      let (gathered, r') ← members r gathered
      return (gathered, r.and r')
    else return (gathered, r)

def objectBody (key : Reader String) (value : σ → String → Except Fault (Reader σ))
    (gathered : σ) : Reader σ := fun s =>
  match skipSpacing s with
  | ⟨[], _⟩ => .error .endOfText
  | ⟨c :: r, h⟩ =>
    if c = '}' then .ok (gathered, ⟨r, h⟩)
    else do
      let (all, r') ← members key value (c :: r) gathered
      return (all, Tail.andRest ⟨c :: r, h⟩ r')

end EndpointPreview.Json
