import EndpointPreview.Config.Basic
import EndpointPreview.Resolution.Survey
/-!
Joins with the primary table. All names of a join are checked, also where one of them is bad and
where there is no primary table to join with.
-/

namespace EndpointPreview

namespace Config.Join

def checkNames (j : Join) : Check (TableRef × Ident × Ident) :=
  let table := ((checkIdent .table j.table).both (checkAsName j.asName)).map fun (name, asName) =>
    TableRef.mk name asName
  table.both ((checkIdent .leftColumn j.leftColumn).both (checkIdent .rightColumn j.rightColumn))

def check (source : Option TableRef) (j : Join) : Check JoinClause :=
  if j.enabled && j.isComplete then do
    let (table, left, right) ← j.checkNames
    match source with
    | none => .skip
    | some primary =>
      .pass {
        kind := j.kind
        table := table
        left := .qualified primary.reference left
        right := .qualified table.reference right
        condition := j.condition.bind Text.filled }
  else .skip

end Config.Join

def Config.joinSurvey (c : Config) (source : Option TableRef) : Survey JoinClause :=
  .each .joins (Config.Join.check source) c.joins

end EndpointPreview
