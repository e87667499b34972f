import EndpointPreview.Config.Basic
import EndpointPreview.Resolution.Survey
import EndpointPreview.ValueText.Literals
import EndpointPreview.ValueText.Reference
/-!
Filters: each yields a comparison, and runs of comparisons of one group stand in parentheses.
-/

namespace EndpointPreview

def Config.declaredParams (c : Config) : List String :=
  (c.params.filter (·.enabled)).map fun p => Text.trim p.name

/-- A value that is wanted; blank text is reported and leaves its place empty. -/
def checkValue (declared : List String) (source : ValueSource) (part : Part) (text : String) :
    Check Value :=
  match Text.filled text with
  | none => .report part .noValue .missing
  | some text =>
    match source with
    | .static => .pass (.literal text)
    | .parameter =>
      match ValueText.parameter? text with
      | none => .refuse part (.notAParameter text)
      | some name =>
        if name ∈ declared then .pass (.param name)
        else .report part (.undeclared name) (.param name)
    | .function =>
      match ValueText.function? text with
      | none => .refuse part (.notAFunction text)
      | some function => .pass (.call function)

structure Clause where
  comparison : Comparison
  connective : Connective
  group : Option String
  startsGroup : Bool
deriving DecidableEq

namespace Config.Filter

def checkList (declared : List String) (f : Filter) : Check (List Value) :=
  match f.source with
  | .static =>
    let texts := ValueText.literals f.value
    if texts = [] then .report .value .noValue [] else .pass (texts.map .literal)
  | source => (checkValue declared source .value f.value).map ([·])

def checkRange (declared : List String) (operator : Operator) (f : Filter) :
    Check (Value × Option Value) := do
  let low ← checkValue declared f.source .value f.value
  match f.secondValue.bind Text.filled with
  | some text => return (low, some (← checkValue declared f.source .secondValue text))
  | none => .report .secondValue (.noSecondValue operator) (low, none)

def checkOperand (declared : List String) (operator : Operator) (f : Filter) : Check Operand :=
  match operator.arity with
  | .none => .pass .none
  | .single => (checkValue declared f.source .value f.value).map .single
  | .range => (f.checkRange declared operator).map fun (low, high) => .range low high
  | .list => (f.checkList declared).map .list

def checkComparison (declared : List String) (operator : Operator) (f : Filter) :
    Check Comparison := do
  let column ← checkColumn .column f.column
  let operand ← f.checkOperand declared operator
  return ⟨column, operator, operand⟩

def groupName (f : Filter) : Option String :=
  f.group.bind Text.filled

def check (declared : List String) (f : Filter) : Check Clause :=
  match f.operator with
  | none => .skip
  | some operator =>
    if f.enabled && !Text.blank f.column then
      (f.checkComparison declared operator).map fun comparison =>
        ⟨comparison, f.connective, f.groupName, f.startsGroup⟩
    else .skip

end Config.Filter

def Clause.leaf (connective : Connective) (c : Clause) : Link :=
  .mk connective (.compare c.comparison)

structure OpenGroup where
  name : String
  connective : Connective
  links : List Link

/-- One link alone needs no parentheses. -/
def OpenGroup.link (g : OpenGroup) : Link :=
  match g.links with
  | [only] => .mk g.connective only.predicate
  | links => .mk g.connective (.group links)

structure ChainBuilder where
  links : Chain
  current : Option OpenGroup

namespace ChainBuilder

def empty : ChainBuilder :=
  ⟨[], none⟩

def close (b : ChainBuilder) : Chain :=
  b.links ++ (b.current.map OpenGroup.link).toList

def groupFor? (b : ChainBuilder) (c : Clause) : Option OpenGroup :=
  b.current.filter fun g => !c.startsGroup && c.group == some g.name

def add (b : ChainBuilder) (c : Clause) : ChainBuilder :=
  match b.groupFor? c with
  | some g => { b with current := some { g with links := g.links ++ [c.leaf c.connective] } }
  | none =>
    match c.group with
    | some name => ⟨b.close, some ⟨name, c.connective, [c.leaf .and]⟩⟩
    | none => ⟨b.close ++ [c.leaf c.connective], none⟩

end ChainBuilder

def Chain.ofClauses (clauses : List Clause) : Chain :=
  (clauses.foldl ChainBuilder.add .empty).close

def Config.filterSurvey (c : Config) : Survey Clause :=
  .each .filters (Config.Filter.check c.declaredParams) c.filters

end EndpointPreview
