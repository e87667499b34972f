import EndpointPreview.Json.ValueReader
/-!
A codec says how the values of a type are written as JSON and read from JSON text. Reading is
told how deep lists and objects may still be nested.
-/

namespace EndpointPreview.Json

structure Codec (α : Type) where
  write : α → Json
  read : Nat → Reader α

namespace Codec

def greatestDepth : Nat := 127

def decode (codec : Codec α) (s : String) : Except Fault α := do
  let (a, r) ← codec.read greatestDepth s.toList
  if (skipSpacing r.val).val = [] then return a else .error .malformed

def encode (codec : Codec α) (a : α) : String :=
  (codec.write a).compact

def any : Codec Json where
  write := id
  read := value

def ofHead (expected : String) (take : Found → Option α) : Reader α := fun s => do
  let (found, r) ← head s
  match take found with
  | some a => return (a, r)
  | none => .error (.mismatch (.wrongType found expected))

def text : Codec String where
  write := .text
  read _ := ofHead "a string" fun
    | .text s => some s
    | _ => none

def flag : Codec Bool where
  write := .bool
  read _ := ofHead "a boolean" fun
    | .bool b => some b
    | _ => none

def optionalText : Codec (Option String) where
  write := ofOption
  read _ := ofHead "a string" fun
    | .null => some none
    | .text s => some (some s)
    | _ => none

def wordOf? (n : Int) : Except Fault UInt32 :=
  if 0 ≤ n ∧ n < UInt32.size then .ok (UInt32.ofNat n.toNat)
  else .error (.mismatch (.outOfRange n "u32"))

def count : Codec UInt32 where
  write n := .ofNat n.toNat
  read _ := fun s => do
    let (n, r) ← ofHead "u32" (fun
      | .number (.integer n) => some n
      | _ => none) s
    return (← wordOf? n, r)

def optionalCount : Codec (Option UInt32) where
  write
    | none => .null
    | some n => .ofNat n.toNat
  read _ := fun s => do
    let (n, r) ← ofHead "u32" (fun
      | .null => some none
      | .number (.integer n) => some (some n)
      | _ => none) s
    match n with
    | none => return (none, r)
    | some n => return (some (← wordOf? n), r)

/-- The text of a value that a form may hold as text, number, boolean or structure. -/
def looseText : Json → String
  | .null => ""
  | .text s => s
  | j => j.compact

def loose : Codec String where
  write := .text
  read depth := Reader.map looseText (value depth)

def optionalLoose : Codec (Option String) where
  write := ofOption
  read depth := Reader.map (fun
    | .null => none
    | j => some (looseText j)) (value depth)

def list (item : Codec α) : Codec (List α) where
  write as := .list (as.map item.write)
  read depth := fun s => do
    let (_, r) ← ofHead "a sequence" (fun
      | .list => some ()
      | _ => none) s
    match depth with
    | 0 => .error .malformed
    | depth + 1 =>
      let (as, r') ← listBody (item.read depth) r.val
      return (as, r.and r')

def wordFor? (spellings : List (String × α)) (w : String) : Except Fault α :=
  match spellings.lookup w with
  | some a => .ok a
  | none => .error (.mismatch (.unknownWord w (spellings.map Prod.fst)))

/-- A word of a vocabulary, written as a string or as the only key of an object, with the value
null. -/
def vocabulary (spellings : List (String × α)) (name : α → String) : Codec α where
  write a := .text (name a)
  read depth := fun s =>
    match skipSpacing s with
    | ⟨[], _⟩ => .error .endOfText
    | ⟨c :: r, h⟩ =>
      let after : Rest s := ⟨r, h⟩
      if c = '"' then do
        let (w, r') ← keptText r
        return (← wordFor? spellings w, after.and r')
      else if c = '{' then
        if depth = 0 then .error .malformed
        else do
          let (w, r₁) ← key keptText r
          let a ← wordFor? spellings w
          let r₂ ← mark ':' r₁.val
          let (_, r₃) ← ofHead "unit" (fun
            | .null => some ()
            | _ => none) r₂.val
          let r₄ ← mark '}' r₃.val
          return (a, (((after.and r₁).and r₂).and r₃).and r₄)
      else .error .malformed

def words (all : List α) (name : α → String) : Codec α :=
  vocabulary (all.map fun a => (name a, a)) name

/-- Nothing is chosen where there is null or blank text. Any other text is read as the word is. -/
def optionalWord (word : Codec α) : Codec (Option α) where
  write
    | none => .null
    | some a => word.write a
  read depth := fun s => do
    let (chosen, r) ← optionalText.read depth s
    match chosen with
    | none => return (none, r)
    | some w =>
      if Text.blank w then return (none, r)
      else return (some (← word.decode (Json.text w).compact), r)

end Codec

end EndpointPreview.Json
