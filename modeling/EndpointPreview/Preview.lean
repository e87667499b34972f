import EndpointPreview.Resolution.Basic
import EndpointPreview.Example.Url
import EndpointPreview.Example.Response
/-!
The preview of a configuration: query, example URL and example response of one endpoint, with
everything that is wrong with the configuration.
-/

namespace EndpointPreview

structure Preview where
  query : String
  url : String
  response : Response
  diagnostics : List Diagnostic
deriving DecidableEq

def defaultHost : String := "example.com"

def Config.preview (c : Config) (host : String) : Preview :=
  let resolution := c.resolve
  { query := resolution.endpoint.query.sql
    url := resolution.endpoint.url host
    response := resolution.endpoint.response
    diagnostics := resolution.diagnostics }

namespace Preview

def isValid (p : Preview) : Bool :=
  p.diagnostics.isEmpty

def diagnosticJson (d : Diagnostic) : Json :=
  .object [("field", .text d.location.path), ("message", .text d.problem.message)]

def json (p : Preview) : Json :=
  .object [
    ("query", .text p.query),
    ("exampleUrl", .text p.url),
    ("exampleResponse", p.response.json),
    ("validationErrors", .list (p.diagnostics.map diagnosticJson))]

end Preview

end EndpointPreview
