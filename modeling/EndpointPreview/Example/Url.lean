import EndpointPreview.Endpoint
import EndpointPreview.Query.Sql
import EndpointPreview.Text.Percent
/-!
The example URL of an endpoint. Its query shows the parameters, the paging, sorting and selection
that a request may ask for, and the first filter that is not set by a parameter.
-/

namespace EndpointPreview

def unquoted (s : String) : String :=
  match s.toList with
  | '\'' :: rest =>
    if rest.getLast? = some '\'' then String.ofList rest.dropLast else s
  | _ => s

def Value.urlText : Value → String
  | .literal text => unquoted text
  | v => v.sql

def Operand.urlText : Operand → String
  | .none => "true"
  | operand => ",".intercalate (operand.values.map Value.urlText)

/-- A filter as a request asks for it: `status=active`, but `age[gte]=18`. -/
def Comparison.pair (c : Comparison) : String × String :=
  let key :=
    if c.operator = .eq then c.column.text else c.column.text ++ "[" ++ c.operator.name ++ "]"
  (key, c.operand.urlText)

namespace Endpoint

def fieldsPair (e : Endpoint) : Option (String × String) :=
  let names := (e.query.projection.take 2).map Projection.outputName
  if e.allowFieldSelection && names ≠ [] then some ("fields", ",".intercalate names) else none

def filterPair (e : Endpoint) : Option (String × String) :=
  (e.query.filter.comparisons.find? (!·.usesParam)).map Comparison.pair

def pairs (e : Endpoint) : List (String × String) :=
  e.params.map (fun p => (p.name, p.example)) ++
    (if e.pagination.enabled then [("page", "1")] else []) ++
    (if e.pagination.allowCustomLimit then [("limit", toString e.pageSize.toNat)] else []) ++
    (if e.allowCustomSorting then [("sort", "id"), ("order", "asc")] else []) ++
    e.fieldsPair.toList ++ e.filterPair.toList

def encodeValue (s : String) : String :=
  String.ofList (s.toList.flatMap fun c => if c = ',' then [c] else Text.percentEncode c)

def route (e : Endpoint) : String :=
  let path := Text.trim e.path
  if path = "" ∨ path.toList.head? = some '/' then path else "/" ++ path

def queryText (e : Endpoint) : String :=
  if e.pairs = [] then ""
  else "?" ++ "&".intercalate (e.pairs.map fun (key, value) => key ++ "=" ++ encodeValue value)

def url (e : Endpoint) (host : String) : String :=
  "https://api." ++ host ++ "/api" ++ e.route ++ e.queryText

end Endpoint

end EndpointPreview
