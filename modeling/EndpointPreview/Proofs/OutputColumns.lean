import Mathlib.Data.List.Nodup
import EndpointPreview.Proofs.EntryChecks
import EndpointPreview.Proofs.PageSize
/-!
The output columns that the three parts of a preview show. A survey of fields keeps their output
names apart, so a row has one value for each column of the query, in the same order, and a request
that may choose its fields names the first two of them.
-/

namespace EndpointPreview

namespace Keyed

variable {α σ : Type}

theorem put_of_not_mem {key : String} {row : List (String × α)} (h : key ∉ row.map Prod.fst)
    (value : α) : put key value row = row ++ [(key, value)] := by
  induction row with
  | nil => rfl
  | cons entry row ih =>
    rw [List.map_cons, List.mem_cons, not_or] at h
    rw [put, if_neg (Ne.symm h.1), ih h.2, List.cons_append]

theorem foldl_put_of_nodup (key : σ → String) (value : σ → α) (row : List (String × α))
    (entries : List σ) (h : (row.map Prod.fst ++ entries.map key).Nodup) :
    entries.foldl (fun row entry => put (key entry) (value entry) row) row =
      row ++ entries.map fun entry => (key entry, value entry) := by
  induction entries generalizing row with
  | nil => simp
  | cons entry entries ih =>
    have hfresh : key entry ∉ row.map Prod.fst := by
      intro hmem
      exact (List.nodup_append.mp h).2.2 _ hmem _ List.mem_cons_self rfl
    have hrest : ((row ++ [(key entry, value entry)]).map Prod.fst ++ entries.map key).Nodup := by
      simpa using h
    rw [List.foldl_cons, put_of_not_mem hfresh, ih _ hrest, List.map_cons, List.append_assoc,
      List.singleton_append]

end Keyed

theorem Survey.invariant_of_step {α σ : Type} {check : List α → σ → Check α}
    {Inv : List α → Prop}
    (step : ∀ before entry a, Inv before → (check before entry).result = some a →
      Inv (before ++ [a]))
    (list : EntryList) (before : List α) (start : Nat) (entries : List σ) (h : Inv before) :
    Inv (before ++ (startingAt list check before start entries).results) := by
  induction entries generalizing before start with
  | nil => simpa [startingAt] using h
  | cons entry entries ih =>
    rw [startingAt]
    dsimp only
    cases hresult : (check before entry).result with
    | none => simpa [hresult] using ih before (start + 1) h
    | some a =>
      have hnext := ih (before ++ [a]) (start + 1) (step before entry a h hresult)
      simpa [hresult] using hnext

namespace Config

theorem Field.outputName_not_mem {f : Field} {before : List Projection} {p : Projection}
    (h : (f.check before).result = some p) :
    p.outputName ∉ before.map Projection.outputName := by
  have he := enabled_of_check h
  unfold check at h
  rw [if_pos he, Check.bind_result] at h
  obtain ⟨asName, -, h⟩ := Option.bind_eq_some_iff.mp h
  rw [Check.bind_result] at h
  obtain ⟨expr, -, h⟩ := Option.bind_eq_some_iff.mp h
  dsimp only at h
  split at h
  · cases h
  · next hfresh =>
    cases h
    exact hfresh

theorem outputNames_nodup (c : Config) :
    (c.resolve.endpoint.query.projection.map Projection.outputName).Nodup := by
  have step : ∀ before f p, (before.map Projection.outputName).Nodup →
      (Field.check before f).result = some p →
      ((before ++ [p]).map Projection.outputName).Nodup := by
    intro before f p hbefore hp
    -- A field is checked against the names of the fields that were kept before it.
    have hfresh := Field.outputName_not_mem hp
    rw [List.map_append, List.map_singleton, List.nodup_append]
    refine ⟨hbefore, List.nodup_singleton _, ?_⟩
    intro name hname other hother he
    rw [List.mem_singleton.mp hother] at he
    exact hfresh (he ▸ hname)
  exact Survey.invariant_of_step step .fields [] 0 c.fields List.nodup_nil

end Config

def Payload.row? : Payload → Option Row
  | .rows [r] => some r
  | .row r => some r
  | _ => none

def Row.keys (row : Row) : List String :=
  row.map Prod.fst

theorem Query.sampleRow_of_nodup {q : Query} (hne : q.projection ≠ [])
    (h : (q.projection.map Projection.outputName).Nodup) :
    q.sampleRow = q.projection.map fun p => (p.outputName, p.sample) := by
  rw [sampleRow, if_neg hne, Keyed.foldl_put_of_nodup _ _ [] _ h, List.nil_append]

theorem Query.keys_sampleRow {q : Query} (hne : q.projection ≠ [])
    (h : (q.projection.map Projection.outputName).Nodup) :
    q.sampleRow.keys = q.projection.map Projection.outputName := by
  rw [sampleRow_of_nodup hne h, Row.keys, List.map_map]
  rfl

theorem Query.json_sampleRow {q : Query} (hne : q.projection ≠ [])
    (h : (q.projection.map Projection.outputName).Nodup) :
    q.sampleRow.json = .object (q.projection.map fun p =>
      (p.outputName, if p.expr.isAggregate then .ofNat 42 else .text "sample_value")) := by
  rw [sampleRow_of_nodup hne h, Row.json, List.map_map]
  congr 2
  funext p
  dsimp only [Function.comp_apply, Projection.sample]
  split <;> rfl

theorem Query.keys_sampleRow_of_nil {q : Query} (h : q.projection = []) :
    q.sampleRow.keys = if q.source.isSome then ["id", "name", "created_at"] else [] := by
  rw [sampleRow, if_pos h]
  split <;> rfl

theorem Query.json_sampleRow_of_nil {q : Query} (h : q.projection = []) :
    q.sampleRow.json = .object (if q.source.isSome then
      [("id", .ofNat 1), ("name", .text "sample_value"),
        ("created_at", .text "2024-01-01T00:00:00Z")] else []) := by
  rw [sampleRow, if_pos h]
  split <;> rfl

namespace Endpoint

def pairsBeforeFields (e : Endpoint) : List (String × String) :=
  e.pairsBeforeLimit ++
    (if e.pagination.allowCustomLimit then [("limit", toString e.pageSize.toNat)] else []) ++
    if e.allowCustomSorting then [("sort", "id"), ("order", "asc")] else []

theorem param_of_fields_key {e : Endpoint} {value : String}
    (h : ("fields", value) ∈ e.pairsBeforeFields) :
    ∃ p ∈ e.params, p.name = "fields" ∧ p.example = value := by
  simp only [pairsBeforeFields, pairsBeforeLimit, List.mem_append, List.mem_map] at h
  rcases h with ((⟨p, hp, hpair⟩ | h) | h) | h
  · obtain ⟨hname, hexample⟩ := Prod.mk.inj hpair
    exact ⟨p, hp, hname, hexample⟩
  all_goals
    split at h
    · simp at h
    · cases h

theorem row?_response {e : Endpoint} (h : e.method ≠ .delete) :
    e.response.payload.row? = some e.query.sampleRow := by
  simp only [response, payload]
  cases hm : e.method with
  | delete => exact absurd hm h
  | _ => rfl

theorem data_response {e : Endpoint} (h : e.method ≠ .delete) :
    e.response.json.member? "data" =
      some (if e.method = .get then .list [e.query.sampleRow.json] else e.query.sampleRow.json) := by
  rw [Response.member?_data, response, payload]
  cases hm : e.method with
  | delete => exact absurd hm h
  | _ => rfl

theorem fieldsPair_eq_none {e : Endpoint} (h : e.query.projection = []) : e.fieldsPair = none := by
  simp [fieldsPair, h]

theorem fieldsPair_eq_keys {e : Endpoint} (ha : e.allowFieldSelection = true)
    (hne : e.query.projection ≠ [])
    (h : (e.query.projection.map Projection.outputName).Nodup) :
    e.fieldsPair = some ("fields", ",".intercalate (e.query.sampleRow.keys.take 2)) := by
  have htake : (e.query.projection.take 2).map Projection.outputName =
      e.query.sampleRow.keys.take 2 := by
    rw [Query.keys_sampleRow hne h, List.map_take]
  have hsome : e.query.sampleRow.keys.take 2 ≠ [] := by
    simpa [Query.keys_sampleRow hne h] using hne
  rw [fieldsPair, htake]
  simp only [ha, Bool.true_and, decide_eq_true_eq, hsome, ne_eq, not_false_eq_true, ↓reduceIte]

theorem pairs_eq_beforeFields (e : Endpoint) :
    e.pairs = e.pairsBeforeFields ++ e.fieldsPair.toList ++ e.filterPair.toList := by
  simp only [pairs, pairsBeforeFields, pairsBeforeLimit, List.append_assoc]

end Endpoint

theorem Query.firstLine_eq (q : Query) :
    q.firstLine = (if q.distinct then "SELECT DISTINCT " else "SELECT ") ++
      projectionSql q.projection ++ (q.source.map fun table => " FROM " ++ table.sql).getD "" := by
  rw [firstLine]
  cases q.source <;> rfl

theorem Query.sql_selects_all {q : Query} (h : q.projection = []) :
    q.firstLine = (if q.distinct then "SELECT DISTINCT *" else "SELECT *") ++
      (q.source.map fun table => " FROM " ++ table.sql).getD "" := by
  rw [firstLine_eq, projectionSql, if_pos h]
  cases q.distinct <;> rfl

theorem Query.sql_selects {q : Query} (h : q.projection ≠ []) :
    q.firstLine = (if q.distinct then "SELECT DISTINCT " else "SELECT ") ++
      ", ".intercalate (q.projection.map Projection.sql) ++
      (q.source.map fun table => " FROM " ++ table.sql).getD "" := by
  rw [firstLine_eq, projectionSql, if_neg h]

/-- The first line of the query, the data of the response and the pairs of the URL. -/
theorem previews_agree_on_columns (c : Config) (host : String) :
    let e := c.resolve.endpoint
    let columns := e.query.projection.map Projection.outputName
    let row := e.query.sampleRow
    let shown := c.preview host
    columns.Nodup ∧
    (∃ rest, shown.query = "\n".intercalate (e.query.firstLine :: rest)) ∧
    shown.url = "https://api." ++ host ++ "/api" ++ e.route ++
      (if e.pairs = [] then "" else "?" ++
        "&".intercalate (e.pairs.map fun (key, value) => key ++ "=" ++ Endpoint.encodeValue value)) ∧
    (e.method ≠ .delete →
      shown.response.payload.row? = some row ∧
      shown.response.json.member? "data" =
        some (if e.method = .get then .list [row.json] else row.json)) ∧
    (e.query.projection ≠ [] →
      e.query.firstLine = (if e.query.distinct then "SELECT DISTINCT " else "SELECT ") ++
        ", ".intercalate (e.query.projection.map Projection.sql) ++
        (e.query.source.map fun table => " FROM " ++ table.sql).getD "" ∧
      row.keys = columns ∧
      row.json = .object (e.query.projection.map fun p =>
        (p.outputName, if p.expr.isAggregate then .ofNat 42 else .text "sample_value")) ∧
      (e.allowFieldSelection = true →
        e.pairs = e.pairsBeforeFields ++ ("fields", ",".intercalate (row.keys.take 2)) ::
          e.filterPair.toList)) ∧
    (e.query.projection = [] →
      e.query.firstLine = (if e.query.distinct then "SELECT DISTINCT *" else "SELECT *") ++
        (e.query.source.map fun table => " FROM " ++ table.sql).getD "" ∧
      e.pairs = e.pairsBeforeFields ++ e.filterPair.toList ∧
      row.keys = (if e.query.source.isSome then ["id", "name", "created_at"] else []) ∧
      row.json = .object (if e.query.source.isSome then
        [("id", .ofNat 1), ("name", .text "sample_value"),
          ("created_at", .text "2024-01-01T00:00:00Z")] else [])) ∧
    (∀ value, ("fields", value) ∈ e.pairsBeforeFields →
      ∃ p ∈ e.params, p.name = "fields" ∧ p.example = value) := by
  intro e columns row shown
  have hnodup : columns.Nodup := c.outputNames_nodup
  refine ⟨hnodup, ⟨_, rfl⟩, rfl, ?_, ?_, ?_, ?_⟩
  · intro hmethod
    exact ⟨Endpoint.row?_response hmethod, Endpoint.data_response hmethod⟩
  · intro hne
    refine ⟨Query.sql_selects hne, Query.keys_sampleRow hne hnodup,
      Query.json_sampleRow hne hnodup, ?_⟩
    intro hallowed
    rw [e.pairs_eq_beforeFields, Endpoint.fieldsPair_eq_keys hallowed hne hnodup]
    simp [row]
  · intro hempty
    refine ⟨Query.sql_selects_all hempty, ?_, Query.keys_sampleRow_of_nil hempty,
      Query.json_sampleRow_of_nil hempty⟩
    rw [e.pairs_eq_beforeFields, Endpoint.fieldsPair_eq_none hempty]
    simp
  · intro value
    exact Endpoint.param_of_fields_key

example :
    (Config.resolve {
      fields := [
        { column := "u.id" },
        { column := "o.id" },
        { column := "o.id", asName := some "order_id", aggregation := .max },
        { aggregation := .count }] }).endpoint.query.sampleRow =
      [("id", .text), ("order_id", .aggregate), ("count", .aggregate)] := by
  decide

end EndpointPreview
