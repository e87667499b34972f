import EndpointPreview.Proofs.Coverage
import EndpointPreview.Proofs.ValueLaws
/-!
Every endpoint that a configuration describes is well formed: its names are safe, a join is
qualified with the two tables that it joins, and each operator has an operand of its shape.
-/

namespace EndpointPreview

theorem ColumnRef.exists_names (column : ColumnRef) :
    ∃ names : List String, names ≠ [] ∧ (∀ name ∈ names, isIdentifier name = true) ∧
      column.text = ".".intercalate names := by
  have hsafe : (column.text.toList.splitOn '.').all isName = true := column.safe
  rw [List.all_eq_true] at hsafe
  refine ⟨(column.text.toList.splitOn '.').map String.ofList, ?_, ?_, ?_⟩
  · simp [List.splitOn_ne_nil]
  · intro name hname
    obtain ⟨cs, hcs, rfl⟩ := List.mem_map.mp hname
    rw [isIdentifier, String.toList_ofList]
    exact hsafe cs hcs
  · have hid : String.toList ∘ String.ofList = id := funext fun _ => String.toList_ofList
    have hdot : ".".toList = ['.'] := rfl
    rw [← String.toList_inj, String.toList_intercalate, List.map_map, hid, List.map_id, hdot,
      List.intercalate_splitOn]

def Expr.column? : Expr → Option ColumnRef
  | .raw _ => none
  | .column c => some c
  | .aggregate _ c => c

namespace Query

def tables (q : Query) : List TableRef :=
  q.source.toList ++ q.joins.map JoinClause.table

def names (q : Query) : List Ident :=
  q.tables.flatMap (fun t => t.name :: t.asName.toList) ++ q.projection.filterMap Projection.asName

def columns (q : Query) : List ColumnRef :=
  q.projection.filterMap (fun p => p.expr.column?) ++ q.joins.flatMap (fun j => [j.left, j.right]) ++
    q.filter.comparisons.map Comparison.column ++ q.groupBy ++ q.orderBy.map OrderItem.column

end Query

def TableRef.Owns (table : TableRef) (column : ColumnRef) : Prop :=
  ∃ name, isIdentifier name = true ∧ column.text = table.reference.text ++ "." ++ name

structure Endpoint.WellFormed (e : Endpoint) : Prop where
  names : ∀ name ∈ e.query.names, isIdentifier name.text = true
  params : ∀ p ∈ e.params, isIdentifier p.name = true
  columns : ∀ column ∈ e.query.columns, ∃ names : List String, names ≠ [] ∧
    (∀ name ∈ names, isIdentifier name = true) ∧ column.text = ".".intercalate names
  joins : ∀ j ∈ e.query.joins, j.table.Owns j.right ∧
    ∃ source, e.query.source = some source ∧ source.Owns j.left
  operands : ∀ c ∈ e.query.filter.comparisons, c.operand.Fits c.operator
  aggregates : ∀ p ∈ e.query.projection, ∀ function column, p.expr = .aggregate function column →
    function ≠ .none ∧ (column = none → function = .count)

namespace Config

theorem Join.owns_of_check {j : Join} {source : Option TableRef} {clause : JoinClause}
    (h : (j.check source).result = some clause) :
    clause.table.Owns clause.right ∧
      ∃ primary, source = some primary ∧ primary.Owns clause.left := by
  unfold check at h
  split_ifs at h
  · rw [Check.bind_result] at h
    obtain ⟨⟨table, left, right⟩, -, h⟩ := Option.bind_eq_some_iff.mp h
    cases source with
    | none => cases h
    | some primary =>
      cases h
      exact ⟨⟨right.text, right.safe, rfl⟩, primary, rfl, left.text, left.safe, rfl⟩
  · cases h

theorem Param.isIdentifier_of_check {p q : Param} (h : p.check.result = some q) :
    isIdentifier q.name = true := by
  unfold check at h
  split_ifs at h
  · rw [Check.map_result] at h
    obtain ⟨name, -, rfl⟩ := Option.map_eq_some_iff.mp h
    exact name.safe
  · cases h

theorem Field.aggregate_of_check {f : Field} {before : List Projection} {p : Projection}
    (h : (f.check before).result = some p) {function : Aggregation} {column : Option ColumnRef}
    (he : p.expr = .aggregate function column) :
    function ≠ .none ∧ (column = none → function = .count) := by
  obtain ⟨-, hexpr⟩ := describes_of_check h
  rw [he] at hexpr
  cases hraw : f.expression.bind Text.filled with
  | some text =>
    rw [hraw] at hexpr
    cases hexpr
  | none =>
    rw [hraw] at hexpr
    obtain ⟨-, hne, hcount, -⟩ := hexpr
    exact ⟨hne, hcount⟩

theorem exists_filter_of_comparison {c : Config} {comparison : Comparison}
    (h : comparison ∈ c.resolve.endpoint.query.filter.comparisons) :
    ∃ f ∈ c.filters, f.enabled = true ∧ f.operator = some comparison.operator ∧
      f.HasOperand c.declaredParams comparison.operator comparison.operand := by
  rw [clause_comparisons] at h
  obtain ⟨clause, hclause, rfl⟩ := List.mem_map.mp h
  obtain ⟨-, f, hf, hcheck⟩ := Survey.exists_of_mem_results hclause
  have he := (Filter.wanted_of_check _ hcheck).1
  obtain ⟨ho, -, hoperand⟩ := Filter.describes_of_check _ hcheck
  exact ⟨f, hf, he, ho, Filter.hasOperand_of_checkOperand hoperand⟩

end Config

theorem resolve_wellFormed (c : Config) : c.resolve.endpoint.WellFormed where
  names name _ := name.safe
  params p hp := by
    obtain ⟨-, q, -, hcheck⟩ := Survey.exists_of_mem_results hp
    exact Config.Param.isIdentifier_of_check hcheck
  columns column _ := column.exists_names
  joins j hj := by
    obtain ⟨-, join, -, hcheck⟩ := Survey.exists_of_mem_results hj
    exact Config.Join.owns_of_check hcheck
  operands comparison hc := by
    obtain ⟨f, -, -, -, hoperand⟩ := Config.exists_filter_of_comparison hc
    exact hoperand.fits
  aggregates p hp function column he := by
    obtain ⟨before, f, -, hcheck⟩ := Survey.exists_of_mem_results hp
    exact Config.Field.aggregate_of_check hcheck he

end EndpointPreview
