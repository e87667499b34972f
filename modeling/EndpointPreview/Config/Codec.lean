import EndpointPreview.Config.Basic
import EndpointPreview.Json.Record
/-!
The JSON form of a configuration. Missing keys take the defaults of the types.
-/

namespace EndpointPreview.Config

open Json (Codec Member)

def methodCodec : Codec Method :=
  Codec.vocabulary Method.spellings Method.name

def connectiveCodec : Codec Connective :=
  Codec.vocabulary Connective.spellings Connective.name

def directionCodec : Codec Direction :=
  Codec.vocabulary Direction.spellings Direction.name

def joinKindCodec : Codec JoinKind :=
  Codec.words JoinKind.all JoinKind.name

def aggregationCodec : Codec Aggregation :=
  Codec.words Aggregation.all Aggregation.name

def operatorCodec : Codec Operator :=
  Codec.words Operator.all Operator.name

def sourceCodec : Codec ValueSource :=
  Codec.words ValueSource.all ValueSource.name

def paramKindCodec : Codec ParamKind :=
  Codec.words ParamKind.all ParamKind.name

def Join.members : List (Member Join) := [
  .of "table" .text (·.table) fun v j => { j with table := v },
  .of "alias" .optionalText (·.asName) fun v j => { j with asName := v },
  .of "joinType" joinKindCodec (·.kind) fun v j => { j with kind := v },
  .of "leftColumn" .text (·.leftColumn) fun v j => { j with leftColumn := v },
  .of "rightColumn" .text (·.rightColumn) fun v j => { j with rightColumn := v },
  .of "customCondition" .optionalText (·.condition) fun v j => { j with condition := v },
  .of "enabled" .flag (·.enabled) fun v j => { j with enabled := v }]

def Join.codec : Codec Join :=
  .record "JoinSpec" members {}

def Field.members : List (Member Field) := [
  .of "column" .text (·.column) fun v f => { f with column := v },
  .of "expression" .optionalText (·.expression) fun v f => { f with expression := v },
  .of "alias" .optionalText (·.asName) fun v f => { f with asName := v },
  .of "aggregation" aggregationCodec (·.aggregation) fun v f => { f with aggregation := v },
  .of "enabled" .flag (·.enabled) fun v f => { f with enabled := v }]

def Field.codec : Codec Field :=
  .record "FieldSpec" members {}

def Filter.members : List (Member Filter) := [
  .of "column" .text (·.column) fun v f => { f with column := v },
  .of "operator" (.optionalWord operatorCodec) (·.operator) fun v f => { f with operator := v },
  .of "valueType" sourceCodec (·.source) fun v f => { f with source := v },
  .of "value" .loose (·.value) fun v f => { f with value := v },
  .of "secondValue" .optionalLoose (·.secondValue) fun v f => { f with secondValue := v },
  .of "logicalOperator" connectiveCodec (·.connective) fun v f => { f with connective := v },
  .of "enabled" .flag (·.enabled) fun v f => { f with enabled := v },
  .of "groupId" .optionalText (·.group) fun v f => { f with group := v },
  .of "isGroupStart" .flag (·.startsGroup) fun v f => { f with startsGroup := v }]

def Filter.codec : Codec Filter :=
  .record "FilterSpec" members {}

def SortKey.members : List (Member SortKey) := [
  .of "column" .text (·.column) fun v s => { s with column := v },
  .of "direction" directionCodec (·.direction) fun v s => { s with direction := v },
  .of "enabled" .flag (·.enabled) fun v s => { s with enabled := v }]

def SortKey.codec : Codec SortKey :=
  .record "SortSpec" members {}

def Param.members : List (Member Param) := [
  .of "name" .text (·.name) fun v p => { p with name := v },
  .of "type" paramKindCodec (·.kind) fun v p => { p with kind := v },
  .of "default" .optionalLoose (·.default) fun v p => { p with default := v },
  .of "enumValues" (.list .text) (·.choices) fun v p => { p with choices := v },
  .of "required" .flag (·.required) fun v p => { p with required := v },
  .of "description" .optionalText (·.description) fun v p => { p with description := v },
  .of "enabled" .flag (·.enabled) fun v p => { p with enabled := v }]

def Param.codec : Codec Param :=
  .record "QueryParam" members {}

def Pagination.members : List (Member Pagination) := [
  .of "enabled" .flag (·.enabled) fun v p => { p with enabled := v },
  .of "defaultLimit" .count (·.defaultLimit) fun v p => { p with defaultLimit := v },
  .of "maxLimit" .count (·.maxLimit) fun v p => { p with maxLimit := v },
  .of "allowCustomLimit" .flag (·.allowCustomLimit) fun v p => { p with allowCustomLimit := v },
  .of "includeTotal" .flag (·.includeTotal) fun v p => { p with includeTotal := v }]

def Pagination.codec : Codec Pagination :=
  .record "Pagination" members {}

def members : List (Member Config) := [
  .of "name" .optionalText (·.name) fun v c => { c with name := v },
  .of "description" .optionalText (·.description) fun v c => { c with description := v },
  .of "method" methodCodec (·.method) fun v c => { c with method := v },
  .of "path" .text (·.path) fun v c => { c with path := v },
  .of "primaryTable" .text (·.primaryTable) fun v c => { c with primaryTable := v },
  .of "primaryTableAlias" .optionalText (·.primaryName) fun v c => { c with primaryName := v },
  .of "joins" (.list Join.codec) (·.joins) fun v c => { c with joins := v },
  .of "selectedFields" (.list Field.codec) (·.fields) fun v c => { c with fields := v },
  .of "filters" (.list Filter.codec) (·.filters) fun v c => { c with filters := v },
  .of "sorting" (.list SortKey.codec) (·.sorting) fun v c => { c with sorting := v },
  .of "pagination" Pagination.codec (·.pagination) fun v c => { c with pagination := v },
  .of "queryParams" (.list Param.codec) (·.params) fun v c => { c with params := v },
  .of "allowCustomSorting" .flag (·.allowCustomSorting)
    fun v c => { c with allowCustomSorting := v },
  .of "allowFieldSelection" .flag (·.allowFieldSelection)
    fun v c => { c with allowFieldSelection := v },
  .of "enableDistinct" .flag (·.distinct) fun v c => { c with distinct := v },
  .of "hardLimit" .optionalCount (·.hardLimit) fun v c => { c with hardLimit := v }]

def codec : Codec Config :=
  .record "EndpointConfig" members {}

end EndpointPreview.Config
