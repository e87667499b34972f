import EndpointPreview.Number.Binary64
import EndpointPreview.Keyed
/-!
JSON values. Objects keep their members in order.
-/

namespace EndpointPreview

inductive Number
  | integer (value : Int)
  | real (value : Binary64)
deriving DecidableEq, Repr

inductive Json
  | null
  | bool (value : Bool)
  | number (value : Number)
  | text (value : String)
  | list (items : List Json)
  | object (members : List (String × Json))

namespace Json

def ofNat (n : Nat) : Json :=
  .number (.integer n)

def ofOption (o : Option String) : Json :=
  match o with
  | none => .null
  | some s => .text s

def member? (key : String) : Json → Option Json
  | .object members => members.lookup key
  | _ => none

end Json

end EndpointPreview
