/-!
The closed vocabularies of an endpoint configuration, with the word that each choice has in a
configuration file and in a query.
-/

namespace EndpointPreview

inductive Method
  | get | post | put | delete | patch
deriving DecidableEq, Repr

def Method.name : Method → String
  | .get => "GET"
  | .post => "POST"
  | .put => "PUT"
  | .delete => "DELETE"
  | .patch => "PATCH"

def Method.spellings : List (String × Method) :=
  [("GET", .get), ("get", .get), ("POST", .post), ("post", .post), ("PUT", .put), ("put", .put),
    ("DELETE", .delete), ("delete", .delete), ("PATCH", .patch), ("patch", .patch)]

inductive JoinKind
  | inner | left | right | full
deriving DecidableEq, Repr

def JoinKind.name : JoinKind → String
  | .inner => "inner"
  | .left => "left"
  | .right => "right"
  | .full => "full"

def JoinKind.all : List JoinKind :=
  [.inner, .left, .right, .full]

def JoinKind.keyword : JoinKind → String
  | .inner => "INNER"
  | .left => "LEFT"
  | .right => "RIGHT"
  | .full => "FULL"

inductive Aggregation
  | none | count | sum | avg | min | max | groupConcat | countDistinct
deriving DecidableEq, Repr

def Aggregation.name : Aggregation → String
  | .none => "none"
  | .count => "count"
  | .sum => "sum"
  | .avg => "avg"
  | .min => "min"
  | .max => "max"
  | .groupConcat => "group_concat"
  | .countDistinct => "count_distinct"

def Aggregation.keyword : Aggregation → String
  | .none => "NONE"
  | .count => "COUNT"
  | .sum => "SUM"
  | .avg => "AVG"
  | .min => "MIN"
  | .max => "MAX"
  | .groupConcat => "GROUP_CONCAT"
  | .countDistinct => "COUNT_DISTINCT"

def Aggregation.all : List Aggregation :=
  [.none, .count, .sum, .avg, .min, .max, .groupConcat, .countDistinct]

inductive Arity
  | none | single | range | list
deriving DecidableEq, Repr

inductive Operator
  | eq | neq | gt | gte | lt | lte | like | ilike | inList | notInList
  | isNull | isNotNull | between | notBetween
deriving DecidableEq, Repr

def Operator.all : List Operator :=
  [.eq, .neq, .gt, .gte, .lt, .lte, .like, .ilike, .inList, .notInList,
    .isNull, .isNotNull, .between, .notBetween]

def Operator.name : Operator → String
  | .eq => "eq"
  | .neq => "neq"
  | .gt => "gt"
  | .gte => "gte"
  | .lt => "lt"
  | .lte => "lte"
  | .like => "like"
  | .ilike => "ilike"
  | .inList => "in"
  | .notInList => "not_in"
  | .isNull => "is_null"
  | .isNotNull => "is_not_null"
  | .between => "between"
  | .notBetween => "not_between"

def Operator.symbol : Operator → String
  | .eq => "="
  | .neq => "!="
  | .gt => ">"
  | .gte => ">="
  | .lt => "<"
  | .lte => "<="
  | .like => "LIKE"
  | .ilike => "ILIKE"
  | .inList => "IN"
  | .notInList => "NOT IN"
  | .isNull => "IS NULL"
  | .isNotNull => "IS NOT NULL"
  | .between => "BETWEEN"
  | .notBetween => "NOT BETWEEN"

def Operator.arity : Operator → Arity
  | .isNull | .isNotNull => .none
  | .between | .notBetween => .range
  | .inList | .notInList => .list
  | _ => .single

inductive ValueSource
  | static | parameter | function
deriving DecidableEq, Repr

def ValueSource.name : ValueSource → String
  | .static => "static"
  | .parameter => "parameter"
  | .function => "function"

def ValueSource.all : List ValueSource :=
  [.static, .parameter, .function]

inductive Connective
  | and | or
deriving DecidableEq, Repr

def Connective.name : Connective → String
  | .and => "and"
  | .or => "or"

def Connective.spellings : List (String × Connective) :=
  [("AND", .and), ("and", .and), ("OR", .or), ("or", .or)]

def Connective.keyword : Connective → String
  | .and => "AND"
  | .or => "OR"

inductive Direction
  | ascending | descending
deriving DecidableEq, Repr

def Direction.name : Direction → String
  | .ascending => "asc"
  | .descending => "desc"

def Direction.spellings : List (String × Direction) :=
  [("ASC", .ascending), ("asc", .ascending), ("DESC", .descending), ("desc", .descending)]

def Direction.keyword : Direction → String
  | .ascending => "ASC"
  | .descending => "DESC"

inductive ParamKind
  | string | number | boolean | date | enum
deriving DecidableEq, Repr

def ParamKind.name : ParamKind → String
  | .string => "string"
  | .number => "number"
  | .boolean => "boolean"
  | .date => "date"
  | .enum => "enum"

def ParamKind.all : List ParamKind :=
  [.string, .number, .boolean, .date, .enum]

inductive Function
  | now | today | currentUser
deriving DecidableEq, Repr

def Function.all : List Function :=
  [.now, .today, .currentUser]

def Function.word : Function → String
  | .now => "now"
  | .today => "today"
  | .currentUser => "current_user"

def Function.call : Function → String
  | .now => "NOW()"
  | .today => "TODAY()"
  | .currentUser => "CURRENT_USER()"

end EndpointPreview
