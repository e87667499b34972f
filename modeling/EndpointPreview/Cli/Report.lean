import EndpointPreview.Settings
import EndpointPreview.Text.Split
import EndpointPreview.Json.Printer
/-!
Reports of the command line: a preview as text or JSON, its diagnostics, and the operators.
-/

namespace EndpointPreview.Cli

def unlines (lines : List String) : String :=
  String.join (lines.map (· ++ "\n"))

def diagnosticLines (diagnostics : List Diagnostic) : List String :=
  ("⚠ " ++ toString diagnostics.length ++ " validation error(s)") ::
    diagnostics.map fun d => "  " ++ d.location.path ++ " " ++ d.problem.message

def previewLines (c : Config) (p : Preview) : List String :=
  [c.method.name ++ " " ++ c.path ++ " " ++ c.name.getD "", "", "Query:"] ++
    (Text.lines p.query).map ("  " ++ ·) ++
    ["", "Example URL:", "  " ++ p.url, "", "Example response:", p.response.json.pretty] ++
    if p.isValid then [] else "" :: diagnosticLines p.diagnostics

def previewReport (format : Format) (c : Config) (p : Preview) : String :=
  match format with
  | .json => unlines [p.json.pretty]
  | .text => unlines (previewLines c p)

def validationReport (p : Preview) : String :=
  unlines (if p.isValid then ["✓ No validation errors"] else diagnosticLines p.diagnostics)

def padded (width : Nat) (s : String) : String :=
  s ++ String.ofList (List.replicate (width - s.length) ' ')

def tableRow (name symbol values form : String) : String :=
  padded 14 name ++ " " ++ padded 14 symbol ++ " " ++ padded 8 values ++ " " ++ form

def Arity.label : Arity → String
  | .none => "0"
  | .single => "1"
  | .range => "2"
  | .list => "list"

def operatorRow (operator : Operator) : String :=
  tableRow operator.name operator.symbol (Arity.label operator.arity)
    (if operator = .eq then "col=value" else "col[" ++ operator.name ++ "]=value")

def operatorReport : String :=
  unlines ([tableRow "Operator" "SQL" "Values" "URL form",
    String.ofList (List.replicate 60 '─')] ++
    Operator.all.map operatorRow ++
    ["", "Function values: " ++ ", ".intercalate (Function.all.map Function.call),
      "Parameter values: \x7b\x7bname\x7d\x7d or :name"])

end EndpointPreview.Cli
