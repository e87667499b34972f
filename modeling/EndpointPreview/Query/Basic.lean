import EndpointPreview.Vocabulary
import EndpointPreview.Identifier
/-!
Queries. Names in a query are checked by their types; the only free texts are expressions,
join conditions and literal values.
-/

namespace EndpointPreview

structure TableRef where
  name : Ident
  asName : Option Ident
deriving DecidableEq

def TableRef.reference (t : TableRef) : Ident :=
  t.asName.getD t.name

inductive Expr
  | raw (text : String)
  | column (column : ColumnRef)
  /-- Without a column all rows are meant. -/
  | aggregate (function : Aggregation) (column : Option ColumnRef)
deriving DecidableEq

def Expr.isAggregate : Expr → Bool
  | .aggregate _ _ => true
  | _ => false

structure Projection where
  expr : Expr
  asName : Option Ident
deriving DecidableEq

def Projection.outputName (p : Projection) : String :=
  match p.asName, p.expr with
  | some name, _ => name.text
  | none, .raw text => text
  | none, .column column => column.name
  | none, .aggregate _ (some column) => column.name
  | none, .aggregate function none => function.name

structure JoinClause where
  kind : JoinKind
  table : TableRef
  left : ColumnRef
  right : ColumnRef
  condition : Option String
deriving DecidableEq

inductive Value
  | literal (text : String)
  | param (name : String)
  | call (function : Function)
  /-- Wanted, but not filled in yet. -/
  | missing
deriving DecidableEq

def Value.isParam : Value → Bool
  | .param _ => true
  | _ => false

inductive Operand
  | none
  | single (value : Value)
  | range (low : Value) (high : Option Value)
  | list (values : List Value)
deriving DecidableEq

def Operand.values : Operand → List Value
  | .none => []
  | .single v => [v]
  | .range low high => low :: high.toList
  | .list vs => vs

structure Comparison where
  column : ColumnRef
  operator : Operator
  operand : Operand
deriving DecidableEq

def Comparison.usesParam (c : Comparison) : Bool :=
  c.operand.values.any Value.isParam

mutual

inductive Predicate
  | compare (comparison : Comparison)
  | group (links : List Link)

inductive Link
  | mk (connective : Connective) (predicate : Predicate)

end

abbrev Chain : Type := List Link

def Link.connective : Link → Connective
  | .mk connective _ => connective

def Link.predicate : Link → Predicate
  | .mk _ predicate => predicate

mutual

def Predicate.comparisons : Predicate → List Comparison
  | .compare c => [c]
  | .group links => comparisonsOf links

def Link.comparisons : Link → List Comparison
  | .mk _ predicate => predicate.comparisons

def comparisonsOf : List Link → List Comparison
  | [] => []
  | link :: links => link.comparisons ++ comparisonsOf links

end

def Chain.comparisons (chain : Chain) : List Comparison :=
  comparisonsOf chain

structure OrderItem where
  column : ColumnRef
  direction : Direction
deriving DecidableEq

structure Limit where
  count : UInt32
  paged : Bool
deriving DecidableEq

structure Query where
  distinct : Bool
  /-- Nothing selected means everything. -/
  projection : List Projection
  source : Option TableRef
  joins : List JoinClause
  filter : Chain
  groupBy : List ColumnRef
  orderBy : List OrderItem
  limit : Option Limit

end EndpointPreview
