import EndpointPreview.Json.Codec
/-!
Records: objects with known keys. A record is read by filling in a record of defaults, either
from an object, whose unknown keys are read past, or from a list with the values of the keys in
order, which may end early.
-/

namespace EndpointPreview.Json

structure Member (ρ : Type) where
  key : String
  write : ρ → Json
  fill : Nat → ρ → Reader ρ

def Member.of (key : String) (codec : Codec α) (get : ρ → α) (set : α → ρ → ρ) : Member ρ where
  key := key
  write r := codec.write (get r)
  fill depth r := Reader.map (set · r) (codec.read depth)

namespace Record

structure Draft (ρ : Type) where
  record : ρ
  seen : List String

def fillKey (members : List (Member ρ)) (depth : Nat) (draft : Draft ρ) (key : String) :
    Except Fault (Reader (Draft ρ)) :=
  match members.find? (·.key == key) with
  | none => .ok (Reader.map (fun _ => draft) skip)
  | some member =>
    if key ∈ draft.seen then .error (.mismatch (.repeatedKey key))
    else .ok (Reader.map (⟨·, key :: draft.seen⟩) (member.fill depth draft.record))

def fillInOrder (depth : Nat) (first : Bool) (record : ρ) : List (Member ρ) → Reader ρ
  | [] => fun s => do
    let r ← mark ']' s
    return (record, r)
  | member :: rest => fun s =>
    match skipSpacing s with
    | ⟨[], _⟩ => .error .endOfText
    | ⟨c :: r, h⟩ =>
      let after : Rest s := ⟨r, h⟩
      if c = ']' then
        .ok (record, after)
      else if first then do
        let (record, r₁) ← member.fill depth record (c :: r)
        let (record, r₂) ← fillInOrder depth false record rest r₁.val
        return (record, Tail.andRest ⟨c :: r, h⟩ (r₁.and r₂))
      else if c = ',' then do
        let (record, r₁) ← member.fill depth record r
        let (record, r₂) ← fillInOrder depth false record rest r₁.val
        return (record, (after.and r₁).and r₂)
      else .error .malformed

end Record

def Codec.record (name : String) (members : List (Member ρ)) (defaults : ρ) : Codec ρ where
  write r := .object (members.map fun m => (m.key, m.write r))
  read depth := fun s => do
    let (isObject, r) ← Codec.ofHead ("struct " ++ name) (fun
      | .object => some true
      | .list => some false
      | _ => none) s
    match depth with
    | 0 => .error .malformed
    | depth + 1 =>
      if isObject then
        let (draft, r') ←
          objectBody (key keptText) (Record.fillKey members depth) ⟨defaults, []⟩ r.val
        return (draft.record, r.and r')
      else
        let (record, r') ← Record.fillInOrder depth true defaults members r.val
        return (record, r.and r')

end EndpointPreview.Json
