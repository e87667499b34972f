import EndpointPreview.Config.Basic
import EndpointPreview.Query.Basic
/-!
Endpoints: a query and what a request to it may say.
-/

namespace EndpointPreview

structure Endpoint where
  method : Method
  path : String
  query : Query
  params : List Config.Param
  pagination : Config.Pagination
  allowCustomSorting : Bool
  allowFieldSelection : Bool

/-- The size of a page in every example: the limit of a paged query, else the default. -/
def Endpoint.pageSize (e : Endpoint) : UInt32 :=
  match e.query.limit with
  | some ⟨count, true⟩ => count
  | _ => e.pagination.defaultLimit

end EndpointPreview
