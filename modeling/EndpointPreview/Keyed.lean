/-!
Lists of keyed values, in which a key stands once.
-/

namespace EndpointPreview.Keyed

/-- Gives a key its value: in the place where the key stands, else at the end. -/
def put (key : String) (value : α) : List (String × α) → List (String × α)
  | [] => [(key, value)]
  | (k, v) :: rest => if k = key then (key, value) :: rest else (k, v) :: put key value rest

end EndpointPreview.Keyed
