import EndpointPreview.Config.Basic
import EndpointPreview.Resolution.Survey
/-!
The table and the selection of a query. Output names are unique, because a row cannot hold two
values under one name.
-/

namespace EndpointPreview

/-- The primary table; a bad name for it is left out, and the table stays. -/
def Config.checkSource (c : Config) : Option TableRef × List Diagnostic :=
  match Text.filled c.primaryTable with
  | none => (none, [])
  | some table =>
    match Ident.ofText? table with
    | none => (none, [⟨.primaryTable, .badName table⟩])
    | some name =>
      match c.primaryName.bind Text.filled with
      | none => (some ⟨name, none⟩, [])
      | some text =>
        match Ident.ofText? text with
        | some asName => (some ⟨name, some asName⟩, [])
        | none => (some ⟨name, none⟩, [⟨.primaryName, .badName text⟩])

namespace Config.Field

def checkExpr (f : Field) : Check Expr :=
  match f.expression.bind Text.filled with
  | some text => .pass (.raw text)
  | none =>
    match f.aggregation, Text.blank f.column with
    | .count, true => .pass (.aggregate .count none)
    | _, true => .skip
    | .none, false => (checkColumn .column f.column).map .column
    | function, false => (checkColumn .column f.column).map fun c => .aggregate function (some c)

def check (before : List Projection) (f : Field) : Check Projection :=
  if f.enabled then do
    let asName ← checkAsName f.asName
    let expr ← f.checkExpr
    let projection : Projection := ⟨expr, asName⟩
    if projection.outputName ∈ before.map Projection.outputName then
      .refuse .asName (.repeatedOutput projection.outputName)
    else .pass projection
  else .skip

end Config.Field

def Config.selection (c : Config) : Survey Projection :=
  .of .fields Config.Field.check c.fields

def grouping (projection : List Projection) : List ColumnRef :=
  if projection.any fun p => p.expr.isAggregate then
    (projection.filterMap fun p =>
      match p.expr with
      | .column c => some c
      | _ => none).foldl (fun seen c => if c ∈ seen then seen else seen ++ [c]) []
  else []

end EndpointPreview
