import EndpointPreview.Config.Codec
import EndpointPreview.Proofs.RecordLaws
/-!
The JSON form of a configuration loses nothing. What a form with only some keys keeps of a record is
its restriction to them, in which the other values are the defaults.
-/

namespace EndpointPreview

open Json (Codec Member Spelling)
open Json.Codec Json.Record

namespace Config

variable {levels : Nat}

theorem methodCodec_lawful : methodCodec.Lawful levels :=
  vocabulary_lawful fun m => by cases m <;> rfl

theorem connectiveCodec_lawful : connectiveCodec.Lawful levels :=
  vocabulary_lawful fun c => by cases c <;> rfl

theorem directionCodec_lawful : directionCodec.Lawful levels :=
  vocabulary_lawful fun d => by cases d <;> rfl

theorem joinKindCodec_lawful : joinKindCodec.Lawful levels :=
  vocabulary_lawful fun k => by cases k <;> rfl

theorem aggregationCodec_lawful : aggregationCodec.Lawful levels :=
  vocabulary_lawful fun a => by cases a <;> rfl

theorem operatorCodec_lawful : operatorCodec.Lawful levels :=
  vocabulary_lawful fun o => by cases o <;> rfl

theorem optionalOperator_lawful : (optionalWord operatorCodec).Lawful levels :=
  optionalWord_lawful operatorCodec_lawful fun o => ⟨o.name, rfl, by cases o <;> rfl⟩

theorem sourceCodec_lawful : sourceCodec.Lawful levels :=
  vocabulary_lawful fun s => by cases s <;> rfl

theorem paramKindCodec_lawful : paramKindCodec.Lawful levels :=
  vocabulary_lawful fun k => by cases k <;> rfl

def Join.restrict (j : Join) (keep : String → Bool) : Join where
  table := if keep "table" then j.table else ""
  asName := if keep "alias" then j.asName else none
  kind := if keep "joinType" then j.kind else .inner
  leftColumn := if keep "leftColumn" then j.leftColumn else ""
  rightColumn := if keep "rightColumn" then j.rightColumn else ""
  condition := if keep "customCondition" then j.condition else none
  enabled := if keep "enabled" then j.enabled else true

def Field.restrict (f : Field) (keep : String → Bool) : Field where
  column := if keep "column" then f.column else ""
  expression := if keep "expression" then f.expression else none
  asName := if keep "alias" then f.asName else none
  aggregation := if keep "aggregation" then f.aggregation else .none
  enabled := if keep "enabled" then f.enabled else true

def Filter.restrict (f : Filter) (keep : String → Bool) : Filter where
  column := if keep "column" then f.column else ""
  operator := if keep "operator" then f.operator else none
  source := if keep "valueType" then f.source else .static
  value := if keep "value" then f.value else ""
  secondValue := if keep "secondValue" then f.secondValue else none
  connective := if keep "logicalOperator" then f.connective else .and
  enabled := if keep "enabled" then f.enabled else true
  group := if keep "groupId" then f.group else none
  startsGroup := if keep "isGroupStart" then f.startsGroup else false

def SortKey.restrict (s : SortKey) (keep : String → Bool) : SortKey where
  column := if keep "column" then s.column else ""
  direction := if keep "direction" then s.direction else .ascending
  enabled := if keep "enabled" then s.enabled else true

def Param.restrict (p : Param) (keep : String → Bool) : Param where
  name := if keep "name" then p.name else ""
  kind := if keep "type" then p.kind else .string
  default := if keep "default" then p.default else none
  choices := if keep "enumValues" then p.choices else []
  required := if keep "required" then p.required else false
  description := if keep "description" then p.description else none
  enabled := if keep "enabled" then p.enabled else true

def Pagination.restrict (p : Pagination) (keep : String → Bool) : Pagination where
  enabled := if keep "enabled" then p.enabled else false
  defaultLimit := if keep "defaultLimit" then p.defaultLimit else 10
  maxLimit := if keep "maxLimit" then p.maxLimit else 100
  allowCustomLimit := if keep "allowCustomLimit" then p.allowCustomLimit else false
  includeTotal := if keep "includeTotal" then p.includeTotal else false

def restrict (c : Config) (keep : String → Bool) : Config where
  name := if keep "name" then c.name else none
  description := if keep "description" then c.description else none
  method := if keep "method" then c.method else .get
  path := if keep "path" then c.path else ""
  primaryTable := if keep "primaryTable" then c.primaryTable else ""
  primaryName := if keep "primaryTableAlias" then c.primaryName else none
  joins := if keep "joins" then c.joins else []
  fields := if keep "selectedFields" then c.fields else []
  filters := if keep "filters" then c.filters else []
  sorting := if keep "sorting" then c.sorting else []
  pagination := if keep "pagination" then c.pagination else {}
  params := if keep "queryParams" then c.params else []
  allowCustomSorting := if keep "allowCustomSorting" then c.allowCustomSorting else false
  allowFieldSelection := if keep "allowFieldSelection" then c.allowFieldSelection else false
  distinct := if keep "enableDistinct" then c.distinct else false
  hardLimit := if keep "hardLimit" then c.hardLimit else none

theorem Join.restores (j : Join) :
    Restores Join.members 0 (written Join.members j) j.restrict :=
  .cons ⟨rfl, (text_lawful _).restores fun _ => rfl⟩ <|
  .cons ⟨rfl, (optionalText_lawful _).restores fun _ => rfl⟩ <|
  .cons ⟨rfl, (joinKindCodec_lawful _).restores fun _ => rfl⟩ <|
  .cons ⟨rfl, (text_lawful _).restores fun _ => rfl⟩ <|
  .cons ⟨rfl, (text_lawful _).restores fun _ => rfl⟩ <|
  .cons ⟨rfl, (optionalText_lawful _).restores fun _ => rfl⟩ <|
  .cons ⟨rfl, (flag_lawful _).restores fun _ => rfl⟩ .nil

theorem Join.codec_lawful : Join.codec.Lawful 1 :=
  record_lawful Join.restores (by decide) (fun _ => rfl) fun j keep h => by
    simp only [Join.members, Member.of, List.map_cons, List.map_nil, List.forall_mem_cons] at h
    simp [Join.restrict, h]

theorem Field.restores (f : Field) :
    Restores Field.members 0 (written Field.members f) f.restrict :=
  .cons ⟨rfl, (text_lawful _).restores fun _ => rfl⟩ <|
  .cons ⟨rfl, (optionalText_lawful _).restores fun _ => rfl⟩ <|
  .cons ⟨rfl, (optionalText_lawful _).restores fun _ => rfl⟩ <|
  .cons ⟨rfl, (aggregationCodec_lawful _).restores fun _ => rfl⟩ <|
  .cons ⟨rfl, (flag_lawful _).restores fun _ => rfl⟩ .nil

theorem Field.codec_lawful : Field.codec.Lawful 1 :=
  record_lawful Field.restores (by decide) (fun _ => rfl) fun f keep h => by
    simp only [Field.members, Member.of, List.map_cons, List.map_nil, List.forall_mem_cons] at h
    simp [Field.restrict, h]

theorem Filter.restores (f : Filter) :
    Restores Filter.members 0 (written Filter.members f) f.restrict :=
  .cons ⟨rfl, (text_lawful _).restores fun _ => rfl⟩ <|
  .cons ⟨rfl, (optionalOperator_lawful _).restores fun _ => rfl⟩ <|
  .cons ⟨rfl, (sourceCodec_lawful _).restores fun _ => rfl⟩ <|
  .cons ⟨rfl, (loose_lawful _).restores fun _ => rfl⟩ <|
  .cons ⟨rfl, (optionalLoose_lawful _).restores fun _ => rfl⟩ <|
  .cons ⟨rfl, (connectiveCodec_lawful _).restores fun _ => rfl⟩ <|
  .cons ⟨rfl, (flag_lawful _).restores fun _ => rfl⟩ <|
  .cons ⟨rfl, (optionalText_lawful _).restores fun _ => rfl⟩ <|
  .cons ⟨rfl, (flag_lawful _).restores fun _ => rfl⟩ .nil

theorem Filter.codec_lawful : Filter.codec.Lawful 1 :=
  record_lawful Filter.restores (by decide) (fun _ => rfl) fun f keep h => by
    simp only [Filter.members, Member.of, List.map_cons, List.map_nil, List.forall_mem_cons] at h
    simp [Filter.restrict, h]

theorem SortKey.restores (s : SortKey) :
    Restores SortKey.members 0 (written SortKey.members s) s.restrict :=
  .cons ⟨rfl, (text_lawful _).restores fun _ => rfl⟩ <|
  .cons ⟨rfl, (directionCodec_lawful _).restores fun _ => rfl⟩ <|
  .cons ⟨rfl, (flag_lawful _).restores fun _ => rfl⟩ .nil

theorem SortKey.codec_lawful : SortKey.codec.Lawful 1 :=
  record_lawful SortKey.restores (by decide) (fun _ => rfl) fun s keep h => by
    simp only [SortKey.members, Member.of, List.map_cons, List.map_nil, List.forall_mem_cons] at h
    simp [SortKey.restrict, h]

theorem Param.restores (p : Param) :
    Restores Param.members 1 (written Param.members p) p.restrict :=
  .cons ⟨rfl, (text_lawful _).restores fun _ => rfl⟩ <|
  .cons ⟨rfl, (paramKindCodec_lawful _).restores fun _ => rfl⟩ <|
  .cons ⟨rfl, (optionalLoose_lawful _).restores fun _ => rfl⟩ <|
  .cons ⟨rfl, ((list_lawful text_lawful) _).restores fun _ => rfl⟩ <|
  .cons ⟨rfl, (flag_lawful _).restores fun _ => rfl⟩ <|
  .cons ⟨rfl, (optionalText_lawful _).restores fun _ => rfl⟩ <|
  .cons ⟨rfl, (flag_lawful _).restores fun _ => rfl⟩ .nil

theorem Param.codec_lawful : Param.codec.Lawful 2 :=
  record_lawful Param.restores (by decide) (fun _ => rfl) fun p keep h => by
    simp only [Param.members, Member.of, List.map_cons, List.map_nil, List.forall_mem_cons] at h
    simp [Param.restrict, h]

theorem Pagination.restores (p : Pagination) :
    Restores Pagination.members 0 (written Pagination.members p) p.restrict :=
  .cons ⟨rfl, (flag_lawful _).restores fun _ => rfl⟩ <|
  .cons ⟨rfl, (count_lawful _).restores fun _ => rfl⟩ <|
  .cons ⟨rfl, (count_lawful _).restores fun _ => rfl⟩ <|
  .cons ⟨rfl, (flag_lawful _).restores fun _ => rfl⟩ <|
  .cons ⟨rfl, (flag_lawful _).restores fun _ => rfl⟩ .nil

theorem Pagination.codec_lawful : Pagination.codec.Lawful 1 :=
  record_lawful Pagination.restores (by decide) (fun _ => rfl) fun p keep h => by
    simp only [Pagination.members, Member.of, List.map_cons, List.map_nil,
      List.forall_mem_cons] at h
    simp [Pagination.restrict, h]

structure Inner where
  joins : Spelling
  fields : Spelling
  filters : Spelling
  sorting : Spelling
  pagination : Spelling
  params : Spelling

namespace Inner

def values (inner : Inner) (c : Config) : List (String × Spelling) :=
  let spellings := [("joins", inner.joins), ("selectedFields", inner.fields),
    ("filters", inner.filters), ("sorting", inner.sorting), ("pagination", inner.pagination),
    ("queryParams", inner.params)]
  (written members c).map fun (key, t) => (key, (spellings.lookup key).getD t)

structure Reads (inner : Inner) (c : Config) : Prop where
  joins : (list Join.codec).Reads 3 inner.joins c.joins
  fields : (list Field.codec).Reads 3 inner.fields c.fields
  filters : (list Filter.codec).Reads 3 inner.filters c.filters
  sorting : (list SortKey.codec).Reads 3 inner.sorting c.sorting
  pagination : Pagination.codec.Reads 3 inner.pagination c.pagination
  params : (list Param.codec).Reads 3 inner.params c.params

theorem Reads.restores {inner : Inner} {c : Config} (h : inner.Reads c) :
    Restores members 3 (inner.values c) c.restrict :=
  .cons ⟨rfl, (optionalText_lawful _).restores fun _ => rfl⟩ <|
  .cons ⟨rfl, (optionalText_lawful _).restores fun _ => rfl⟩ <|
  .cons ⟨rfl, (methodCodec_lawful _).restores fun _ => rfl⟩ <|
  .cons ⟨rfl, (text_lawful _).restores fun _ => rfl⟩ <|
  .cons ⟨rfl, (text_lawful _).restores fun _ => rfl⟩ <|
  .cons ⟨rfl, (optionalText_lawful _).restores fun _ => rfl⟩ <|
  .cons ⟨rfl, h.joins.restores fun _ => rfl⟩ <|
  .cons ⟨rfl, h.fields.restores fun _ => rfl⟩ <|
  .cons ⟨rfl, h.filters.restores fun _ => rfl⟩ <|
  .cons ⟨rfl, h.sorting.restores fun _ => rfl⟩ <|
  .cons ⟨rfl, h.pagination.restores fun _ => rfl⟩ <|
  .cons ⟨rfl, h.params.restores fun _ => rfl⟩ <|
  .cons ⟨rfl, (flag_lawful _).restores fun _ => rfl⟩ <|
  .cons ⟨rfl, (flag_lawful _).restores fun _ => rfl⟩ <|
  .cons ⟨rfl, (flag_lawful _).restores fun _ => rfl⟩ <|
  .cons ⟨rfl, (optionalCount_lawful _).restores fun _ => rfl⟩ .nil

def plain (c : Config) : Inner where
  joins := .json ((list Join.codec).write c.joins)
  fields := .json ((list Field.codec).write c.fields)
  filters := .json ((list Filter.codec).write c.filters)
  sorting := .json ((list SortKey.codec).write c.sorting)
  pagination := .json (Pagination.codec.write c.pagination)
  params := .json ((list Param.codec).write c.params)

theorem plain_reads (c : Config) : (plain c).Reads c where
  joins := list_lawful (Join.codec_lawful.mono (by decide)) _
  fields := list_lawful (Field.codec_lawful.mono (by decide)) _
  filters := list_lawful (Filter.codec_lawful.mono (by decide)) _
  sorting := list_lawful (SortKey.codec_lawful.mono (by decide)) _
  pagination := Pagination.codec_lawful.mono (by decide) _
  params := list_lawful Param.codec_lawful _

theorem plain_values (c : Config) : (plain c).values c = written members c := rfl

end Inner

theorem codec_lawful : codec.Lawful 4 :=
  record_lawful (fun c => Inner.plain_values c ▸ (Inner.plain_reads c).restores) (by decide)
    (fun _ => rfl) fun c keep h => by
      simp only [members, Member.of, List.map_cons, List.map_nil, List.forall_mem_cons] at h
      simp [restrict, h]

theorem decode_encode (c : Config) :
    codec.decode (codec.encode c) = .ok c ∧ codec.decode (codec.write c).pretty = .ok c :=
  codec_lawful.reads_back (by decide) c

end Config

end EndpointPreview
