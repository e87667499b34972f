import EndpointPreview.Json.Printer
import EndpointPreview.Text.Quoted
/-!
What can be wrong with a JSON text that should hold a value of some type.
-/

namespace EndpointPreview.Json

/-- What stands where a value is read. Of a list or object only the opening bracket is seen. -/
inductive Found
  | null
  | bool (value : Bool)
  | number (value : Number)
  | text (value : String)
  | list
  | object
deriving DecidableEq

def Found.describe : Found → String
  | .null => "null"
  | .bool true => "boolean `true`"
  | .bool false => "boolean `false`"
  | .number (.integer n) => "integer `" ++ String.ofList (integerChars n) ++ "`"
  | .number (.real x) => "floating point `" ++ String.ofList x.chars ++ "`"
  | .text s => "string " ++ Text.quotedForMessage s
  | .list => "sequence"
  | .object => "map"

inductive Mismatch
  | wrongType (found : Found) (expected : String)
  | outOfRange (value : Int) (expected : String)
  | unknownWord (word : String) (known : List String)
  | repeatedKey (key : String)
deriving DecidableEq

def Mismatch.message : Mismatch → String
  | .wrongType found expected => "invalid type: " ++ found.describe ++ ", expected " ++ expected
  | .outOfRange value expected =>
    "invalid value: integer `" ++ String.ofList (integerChars value) ++ "`, expected " ++ expected
  | .unknownWord word known =>
    "unknown variant `" ++ word ++ "`, expected one of " ++
      ", ".intercalate (known.map fun k => "`" ++ k ++ "`")
  | .repeatedKey key => "duplicate field `" ++ key ++ "`"

inductive Fault
  | endOfText
  | malformed
  | mismatch (cause : Mismatch)
deriving DecidableEq

def Fault.message : Fault → String
  | .endOfText => "the text ends early"
  | .malformed => "malformed text"
  | .mismatch cause => cause.message

end EndpointPreview.Json
