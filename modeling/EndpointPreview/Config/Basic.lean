import EndpointPreview.Vocabulary
import EndpointPreview.Text.Blank
/-!
Endpoint configurations, as an editor holds them: every text is free and every part may be
missing. The defaults are those of a part that has just been added.
-/

namespace EndpointPreview

namespace Config

structure Join where
  table : String := ""
  asName : Option String := none
  kind : JoinKind := .inner
  leftColumn : String := ""
  rightColumn : String := ""
  condition : Option String := none
  enabled : Bool := true
deriving DecidableEq

structure Field where
  column : String := ""
  /-- Query text that takes the place of the column and its aggregation. -/
  expression : Option String := none
  asName : Option String := none
  aggregation : Aggregation := .none
  enabled : Bool := true
deriving DecidableEq

structure Filter where
  column : String := ""
  operator : Option Operator := none
  source : ValueSource := .static
  value : String := ""
  secondValue : Option String := none
  connective : Connective := .and
  enabled : Bool := true
  /-- Neighbours with the same group stand in parentheses. -/
  group : Option String := none
  /-- Starts a new group even after a neighbour of the same group. -/
  startsGroup : Bool := false
deriving DecidableEq

structure SortKey where
  column : String := ""
  direction : Direction := .ascending
  enabled : Bool := true
deriving DecidableEq

structure Param where
  name : String := ""
  kind : ParamKind := .string
  default : Option String := none
  choices : List String := []
  required : Bool := false
  description : Option String := none
  enabled : Bool := true
deriving DecidableEq

structure Pagination where
  enabled : Bool := false
  defaultLimit : UInt32 := 10
  maxLimit : UInt32 := 100
  allowCustomLimit : Bool := false
  includeTotal : Bool := false
deriving DecidableEq

end Config

structure Config where
  name : Option String := none
  description : Option String := none
  method : Method := .get
  path : String := ""
  primaryTable : String := ""
  primaryName : Option String := none
  joins : List Config.Join := []
  fields : List Config.Field := []
  filters : List Config.Filter := []
  sorting : List Config.SortKey := []
  pagination : Config.Pagination := {}
  params : List Config.Param := []
  allowCustomSorting : Bool := false
  allowFieldSelection : Bool := false
  distinct : Bool := false
  hardLimit : Option UInt32 := none
deriving DecidableEq

namespace Config

def primaryReference (c : Config) : String :=
  (c.primaryName.bind Text.filled).getD c.primaryTable

def Param.example (p : Param) : String :=
  match p.kind with
  | .number => "123"
  | .boolean => "true"
  | .date => "2024-01-01"
  | .enum => (p.choices.head?.or p.default).getD "example"
  | .string => (p.default.filter (· ≠ "")).getD "example"

def Join.isComplete (j : Join) : Bool :=
  !Text.blank j.table && !Text.blank j.leftColumn && !Text.blank j.rightColumn

end Config

end EndpointPreview
