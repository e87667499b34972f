import EndpointPreview.Endpoint
import EndpointPreview.Json.Basic
/-!
The example response of an endpoint: a status, sample data and, for paged endpoints, the page.
-/

namespace EndpointPreview

structure Page where
  total : Option Nat
  number : Nat
  limit : Nat
  pages : Option Nat
deriving DecidableEq

inductive Sample
  | identity | aggregate | text | time
deriving DecidableEq

abbrev Row : Type := List (String × Sample)

inductive Payload
  | rows (rows : List Row)
  | row (row : Row)
  | deleted
deriving DecidableEq

structure Response where
  status : Nat
  payload : Payload
  page : Option Page
deriving DecidableEq

def Sample.json : Sample → Json
  | .identity => .ofNat 1
  | .aggregate => .ofNat 42
  | .text => .text "sample_value"
  | .time => .text "2024-01-01T00:00:00Z"

def sampleTotal : Nat := 100

def Projection.sample (p : Projection) : Sample :=
  if p.expr.isAggregate then .aggregate else .text

def Query.sampleRow (q : Query) : Row :=
  if q.projection = [] then
    if q.source.isSome then [("id", .identity), ("name", .text), ("created_at", .time)] else []
  else q.projection.foldl (fun row p => Keyed.put p.outputName p.sample row) []

namespace Endpoint

def page (e : Endpoint) : Option Page :=
  if e.pagination.enabled then
    let limit := e.pageSize.toNat
    let counted : Bool := e.pagination.includeTotal
    some {
      total := if counted then some sampleTotal else none
      number := 1
      limit := limit
      pages := if counted then some ((sampleTotal + (max limit 1 - 1)) / max limit 1) else none }
  else none

def payload (e : Endpoint) : Payload :=
  match e.method with
  | .get => .rows [e.query.sampleRow]
  | .post | .put | .patch => .row e.query.sampleRow
  | .delete => .deleted

def response (e : Endpoint) : Response where
  status := if e.method = .post then 201 else 200
  payload := e.payload
  page := e.page

end Endpoint

def Row.json (row : Row) : Json :=
  .object (row.map fun (name, sample) => (name, sample.json))

def Payload.json : Payload → Json
  | .rows all => .list (all.map Row.json)
  | .row r => r.json
  | .deleted => .object [("deleted", .bool true)]

def Page.json (p : Page) : Json :=
  .object ((p.total.map fun n => ("total", .ofNat n)).toList ++
    [("page", .ofNat p.number), ("limit", .ofNat p.limit)] ++
    (p.pages.map fun n => ("pages", .ofNat n)).toList)

def Response.json (r : Response) : Json :=
  .object ([("status", .ofNat r.status), ("data", r.payload.json)] ++
    (r.page.map fun p => ("meta", p.json)).toList)

theorem Response.member?_data (r : Response) : r.json.member? "data" = some r.payload.json :=
  rfl

theorem Response.member?_page (r : Response) : r.json.member? "meta" = r.page.map Page.json := by
  obtain ⟨status, payload, page⟩ := r
  cases page <;> rfl

end EndpointPreview
