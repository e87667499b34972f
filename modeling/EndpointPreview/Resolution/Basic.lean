import EndpointPreview.Endpoint
import EndpointPreview.Resolution.Selection
import EndpointPreview.Resolution.Joins
import EndpointPreview.Resolution.Filters
/-!
The resolution of a configuration: the endpoint that its sound parts describe, and what is wrong
with the others.
-/

namespace EndpointPreview

namespace Config

def SortKey.check (s : SortKey) : Check OrderItem :=
  if s.enabled && !Text.blank s.column then
    (checkColumn .column s.column).map fun column => ⟨column, s.direction⟩
  else .skip

def Param.check (p : Param) : Check Param :=
  if p.enabled && !Text.blank p.name then
    (checkIdent .name p.name).map fun name => { p with name := name.text }
  else .skip

def orderSurvey (c : Config) : Survey OrderItem :=
  .each .sorting SortKey.check c.sorting

def paramSurvey (c : Config) : Survey Param :=
  .each .params Param.check c.params

/-- A greatest limit of zero does not bound the default limit. -/
def Pagination.isTooHigh (p : Pagination) : Bool :=
  0 < p.maxLimit && p.maxLimit < p.defaultLimit

def capped (count : UInt32) : Option UInt32 → UInt32
  | none => count
  | some greatest => min count greatest

def limit (c : Config) : Option Limit :=
  let p := c.pagination
  if p.enabled then
    some ⟨capped (if p.isTooHigh then p.maxLimit else p.defaultLimit) c.hardLimit, true⟩
  else c.hardLimit.map fun count => ⟨count, false⟩

def limitDiagnostics (c : Config) : List Diagnostic :=
  let p := c.pagination
  if p.enabled && p.isTooHigh then [⟨.defaultLimit, .limitTooHigh p.defaultLimit p.maxLimit⟩]
  else []

end Config

structure Resolution where
  endpoint : Endpoint
  diagnostics : List Diagnostic

def Config.resolve (c : Config) : Resolution :=
  let (source, sourceDiagnostics) := c.checkSource
  let selection := c.selection
  let joins := c.joinSurvey source
  let filters := c.filterSurvey
  let order := c.orderSurvey
  let params := c.paramSurvey
  { endpoint := {
      method := c.method
      path := Text.trim c.path
      query := {
        distinct := c.distinct
        projection := selection.results
        source := source
        joins := joins.results
        filter := .ofClauses filters.results
        groupBy := grouping selection.results
        orderBy := order.results
        limit := c.limit }
      params := params.results
      pagination := c.pagination
      allowCustomSorting := c.allowCustomSorting
      allowFieldSelection := c.allowFieldSelection }
    diagnostics := sourceDiagnostics ++ selection.diagnostics ++ joins.diagnostics ++
      filters.diagnostics ++ order.diagnostics ++ c.limitDiagnostics ++ params.diagnostics }

end EndpointPreview
