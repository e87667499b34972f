import EndpointPreview.Query.Basic
/-!
The text of a query. The selection and its table share the first line; every join and every other
clause that is not empty has a line of its own.
-/

namespace EndpointPreview

def Expr.sql : Expr → String
  | .raw text => text
  | .column c => c.text
  | .aggregate function c =>
    let argument := (c.map ColumnRef.text).getD "*"
    match function with
    | .none => argument
    | .countDistinct => "COUNT(DISTINCT " ++ argument ++ ")"
    | other => other.keyword ++ "(" ++ argument ++ ")"

def Projection.sql (p : Projection) : String :=
  match p.asName with
  | some name => p.expr.sql ++ " AS " ++ name.text
  | none => p.expr.sql

def projectionSql (projection : List Projection) : String :=
  if projection = [] then "*" else ", ".intercalate (projection.map Projection.sql)

def TableRef.sql (t : TableRef) : String :=
  match t.asName with
  | some name => t.name.text ++ " AS " ++ name.text
  | none => t.name.text

def JoinClause.sql (j : JoinClause) : String :=
  j.kind.keyword ++ " JOIN " ++ j.table.sql ++ " ON " ++ j.left.text ++ " = " ++ j.right.text ++
    match j.condition with
    | some text => " " ++ text
    | none => ""

def Value.sql : Value → String
  | .literal text => text
  | .param name => "\x7b\x7b" ++ name ++ "\x7d\x7d"
  | .call function => function.call
  | .missing => ""

def Operand.words : Operand → List String
  | .none | .list [] => []
  | .single v => [v.sql]
  | .range low .none => [low.sql]
  | .range low (.some high) => [low.sql, "AND", high.sql]
  | .list vs => ["(" ++ ", ".intercalate (vs.map Value.sql) ++ ")"]

def Comparison.sql (c : Comparison) : String :=
  " ".intercalate ((c.column.text :: c.operator.symbol :: c.operand.words).filter (· ≠ ""))

mutual

def Predicate.sql : Predicate → String
  | .compare c => c.sql
  | .group [] => "()"
  | .group (.mk _ predicate :: links) => "(" ++ (predicate.sql ++ linksSql links) ++ ")"

def linksSql : List Link → String
  | [] => ""
  | .mk connective predicate :: links =>
    " " ++ connective.keyword ++ " " ++ predicate.sql ++ linksSql links

end

/-- The first connective of a chain is not written. -/
def Chain.sql : Chain → String
  | [] => ""
  | .mk _ predicate :: links => predicate.sql ++ linksSql links

def groupBySql (columns : List ColumnRef) : Option String :=
  if columns = [] then none
  else some ("GROUP BY " ++ ", ".intercalate (columns.map ColumnRef.text))

def OrderItem.sql (o : OrderItem) : String :=
  o.column.text ++ " " ++ o.direction.keyword

def orderBySql (items : List OrderItem) : Option String :=
  if items = [] then none
  else some ("ORDER BY " ++ ", ".intercalate (items.map OrderItem.sql))

def Limit.sql (l : Limit) : String :=
  "LIMIT " ++ toString l.count.toNat ++
    if l.paged then " OFFSET \x7b\x7boffset\x7d\x7d" else ""

def Chain.clause (chain : Chain) : Option String :=
  if chain.isEmpty then none else some ("WHERE " ++ chain.sql)

namespace Query

def firstLine (q : Query) : String :=
  (if q.distinct then "SELECT DISTINCT " else "SELECT ") ++ projectionSql q.projection ++
    match q.source with
    | some table => " FROM " ++ table.sql
    | none => ""

def sqlLines (q : Query) : List String :=
  q.firstLine :: q.joins.map JoinClause.sql ++ q.filter.clause.toList ++
    (groupBySql q.groupBy).toList ++ (orderBySql q.orderBy).toList ++
    (q.limit.map Limit.sql).toList

def sql (q : Query) : String :=
  "\n".intercalate q.sqlLines

end Query

end EndpointPreview
