import EndpointPreview.Proofs.Coverage
import EndpointPreview.Proofs.PaddedLists
import EndpointPreview.Proofs.ValueLaws
/-!
Filters that have no value yet. They keep their place in the query and are reported, and the query
shows the column, the operator and the second bound of a range, as far as these are there.
-/

namespace EndpointPreview

open Text

/-- What a text that is not blank stands for; a parameter need not be declared. -/
def ValueSource.value? (source : ValueSource) (text : String) : Option Value :=
  match source with
  | .static => some (.literal text)
  | .parameter => (ValueText.parameter? text).map .param
  | .function => (ValueText.function? text).map .call

section

variable {declared : List String} {source : ValueSource} {part : Part} {text filledText : String}

theorem checkValue_of_blank (h : blank text = true) :
    checkValue declared source part text = .report part .noValue .missing := by
  rw [checkValue, filled_eq_none.mpr h]

theorem checkValue_of_filled (h : filled text = some filledText) :
    (checkValue declared source part text).result = source.value? filledText := by
  rw [checkValue, h]
  cases source with
  | static => rfl
  | parameter =>
    dsimp only [ValueSource.value?]
    cases ValueText.parameter? filledText with
    | none => rfl
    | some name =>
      dsimp only [Option.map_some]
      split <;> rfl
  | function =>
    dsimp only [ValueSource.value?]
    cases ValueText.function? filledText <;> rfl

end

theorem ValueText.literals_of_blank {s : String} (h : blank s = true) : literals s = [] := by
  rw [blank, List.all_eq_true] at h
  have hcomma := comma_not_mem_blank h
  have hunquoted : CommasUnquoted s.toList := by
    intro first rest he
    exact absurd (he ▸ List.mem_append_right first List.mem_cons_self) hcomma
  rw [literals_of_commasUnquoted hunquoted, cut_singleton hcomma, trimChars_eq_nil.mpr h]
  rfl

theorem Value.sql_ne_empty {v : Value} (hsound : v.Sound) (hv : v ≠ .missing) : v.sql ≠ "" := by
  cases v with
  | literal text => exact hsound.1
  | param name =>
    intro he
    have hlength := congrArg String.length he
    simp [sql] at hlength
  | call function => cases function <;> decide
  | missing => exact absurd rfl hv

namespace Config

namespace Filter

variable {declared : List String} {f : Filter} {operator : Operator}

def bound? (f : Filter) : Option Value :=
  (f.secondValue.bind filled).bind f.source.value?

def emptyOperand (f : Filter) : Arity → Operand
  | .none => .none
  | .single => .single .missing
  | .range => .range .missing f.bound?
  | .list => if f.source = .static then .list [] else .list [.missing]

def BoundFits (f : Filter) : Prop :=
  ∀ text ∈ f.secondValue.bind filled, (f.source.value? text).isSome = true

theorem checkRange_of_blank (hblank : blank f.value = true) (hbound : f.BoundFits) :
    (f.checkRange declared operator).result = some (.missing, f.bound?) := by
  rw [checkRange, checkValue_of_blank hblank, Check.bind_result, Check.report_result,
    Option.bind_some, bound?]
  cases hsecond : f.secondValue.bind filled with
  | none => rfl
  | some text =>
    obtain ⟨s, -, hs⟩ := Option.bind_eq_some_iff.mp hsecond
    obtain ⟨v, hv⟩ := Option.isSome_iff_exists.mp (hbound text hsecond)
    dsimp only
    rw [Check.bind_result, checkValue_of_filled (filled_of_filled hs), hv]
    simp [hv]

theorem checkList_of_blank (hblank : blank f.value = true) :
    (f.checkList declared).result.map .list = some (f.emptyOperand .list) := by
  rw [emptyOperand]
  unfold checkList
  cases hsource : f.source with
  | static => simp [ValueText.literals_of_blank hblank]
  | _ => simp [checkValue_of_blank hblank]

theorem checkOperand_of_blank (hblank : blank f.value = true)
    (hbound : operator.arity = .range → f.BoundFits) :
    (f.checkOperand declared operator).result = some (f.emptyOperand operator.arity) := by
  unfold checkOperand
  cases harity : operator.arity with
  | none => rfl
  | single =>
    dsimp only
    rw [checkValue_of_blank hblank]
    rfl
  | range =>
    dsimp only
    rw [Check.map_result, checkRange_of_blank hblank (hbound harity)]
    rfl
  | list => exact checkList_of_blank hblank

theorem noValue_of_blank (hblank : blank f.value = true) (harity : operator.arity ≠ .none) :
    ⟨.value, .noValue⟩ ∈ (f.checkOperand declared operator).flaws := by
  unfold checkOperand
  cases ha : operator.arity with
  | none => exact absurd ha harity
  | single =>
    dsimp only
    rw [checkValue_of_blank hblank]
    exact List.mem_singleton_self _
  | range =>
    dsimp only
    rw [Check.map_flaws, checkRange, checkValue_of_blank hblank, Check.bind_flaws]
    exact List.mem_append_left _ (List.mem_singleton_self _)
  | list =>
    dsimp only
    rw [Check.map_flaws]
    unfold checkList
    cases hsource : f.source with
    | static =>
      dsimp only
      rw [if_pos (ValueText.literals_of_blank hblank)]
      exact List.mem_singleton_self _
    | _ =>
      dsimp only
      rw [Check.map_flaws, checkValue_of_blank hblank]
      exact List.mem_singleton_self _

theorem check_eq (he : f.enabled = true) (hcolumn : isColumnPath (trim f.column) = true)
    (hoperator : f.operator = some operator) :
    f.check declared = (f.checkComparison declared operator).map fun comparison =>
      ⟨comparison, f.connective, f.groupName, f.startsGroup⟩ := by
  have hblank : blank f.column = false := by
    rw [← Bool.not_eq_true, blank_iff]
    intro hempty
    rw [hempty] at hcolumn
    exact absurd hcolumn (by decide)
  rw [check, hoperator]
  exact if_pos (by rw [he, hblank]; rfl)

theorem checkColumn_of_safe {part : Part} {text : String} (h : isColumnPath (trim text) = true) :
    checkColumn part text = .pass ⟨trim text, h⟩ := by
  rw [checkColumn, ColumnRef.ofText?, dif_pos h]

theorem checkComparison_of_safe (hcolumn : isColumnPath (trim f.column) = true) :
    f.checkComparison declared operator = do
      let operand ← f.checkOperand declared operator
      return ⟨⟨trim f.column, hcolumn⟩, operator, operand⟩ := by
  rw [checkComparison, checkColumn_of_safe hcolumn]
  rfl

theorem bound?_sql_ne_empty {bound : Value} (h : f.bound? = some bound) : bound.sql ≠ "" := by
  obtain ⟨text, htext, hbound⟩ := Option.bind_eq_some_iff.mp h
  obtain ⟨s, -, hs⟩ := Option.bind_eq_some_iff.mp htext
  have hvalue : (checkValue [] f.source .value text).result = f.source.value? text :=
    checkValue_of_filled (filled_of_filled hs)
  rw [hbound] at hvalue
  exact Value.sql_ne_empty (checkValue_sound hvalue) (checkValue_ne_missing hs hvalue)

theorem path_of_value (i : Nat) :
    (Location.entry .filters i .value).path = "filters[" ++ toString i ++ "].value" := by
  have hlist : "filters" ++ "[" = "filters[" := rfl
  have hpart : "]." ++ "value" = "].value" := rfl
  change "filters" ++ "[" ++ toString i ++ "]." ++ "value" = _
  rw [hlist, String.append_assoc, hpart]

def partialSql (f : Filter) (operator : Operator) : String :=
  trim f.column ++ " " ++ operator.symbol ++
    match operator.arity, f.bound? with
    | .range, some bound => " AND " ++ bound.sql
    | _, _ => ""

/-- The brackets of a list stay where its one value is missing. -/
theorem words_of_emptyOperand (harity : operator.arity ≠ .none) :
    (f.emptyOperand operator.arity).words.filter (· ≠ "") =
      match operator.arity, f.bound? with
      | .range, some bound => ["AND", bound.sql]
      | .list, _ => if f.source = .static then [] else ["()"]
      | _, _ => [] := by
  cases ha : operator.arity with
  | none => exact absurd ha harity
  | single => rfl
  | range =>
    cases hbound : f.bound? with
    | none =>
      rw [emptyOperand, hbound]
      rfl
    | some bound =>
      rw [emptyOperand, hbound, Operand.words]
      have hne := bound?_sql_ne_empty hbound
      simp [Value.sql.eq_4, hne]
  | list =>
    by_cases hsource : f.source = .static
    · rw [emptyOperand, if_pos hsource, if_pos hsource]
      rfl
    · rw [emptyOperand, if_neg hsource, if_neg hsource]
      rfl

theorem sql_of_emptyOperand {column : ColumnRef} (hcolumn : column.text = trim f.column)
    (harity : operator.arity ≠ .none) :
    Comparison.sql ⟨column, operator, f.emptyOperand operator.arity⟩ =
      f.partialSql operator ++
        if operator.arity = .list ∧ f.source ≠ .static then " ()" else "" := by
  have hempty : column.text ≠ "" := by
    intro he
    have hsafe := column.safe
    rw [he] at hsafe
    exact absurd hsafe (by decide)
  have hsymbol : operator.symbol ≠ "" := by cases operator <;> decide
  rw [Comparison.sql, List.filter_cons_of_pos (by simpa using hempty),
    List.filter_cons_of_pos (by simpa using hsymbol), words_of_emptyOperand harity, partialSql,
    ← hcolumn]
  cases ha : operator.arity with
  | none => exact absurd ha harity
  | single => simp [String.intercalate_cons_cons]
  | range =>
    cases f.bound? with
    | none => simp [String.intercalate_cons_cons]
    | some bound =>
      have hand : " " ++ ("AND " ++ bound.sql) = " AND " ++ bound.sql := by
        rw [← String.append_assoc]
        rfl
      simp [String.intercalate_cons_cons, String.append_assoc, hand]
  | list =>
    by_cases hsource : f.source = .static <;>
      simp [hsource, String.intercalate_cons_cons, String.append_assoc]

end Filter

theorem exists_leaf {c : Config} {i : Nat} {f : Filter} {clause : Clause}
    (hi : c.filters[i]? = some f) (h : (f.check c.declaredParams).result = some clause) :
    ∃ (k : Nat) (comparison : Comparison), (c.kept .filters)[k]? = some i ∧
      c.resolve.endpoint.query.filter.comparisons[k]? = some comparison ∧
      f.Describes c.declaredParams comparison := by
  have hkept : i ∈ c.kept .filters := by
    apply Survey.mem_kept.mpr
    apply Survey.yields_getElem?.mpr
    refine ⟨f.check c.declaredParams, ?_, by rw [h]; rfl⟩
    rw [List.getElem?_map, hi]
    rfl
  obtain ⟨k, hk, hki⟩ := List.getElem_of_mem hkept
  have hnodes := c.hasNodes.filters
  have hlt : k < c.resolve.endpoint.query.filter.comparisons.length := hnodes.length_eq ▸ hk
  obtain ⟨g, hg, hdescribes⟩ := hnodes.get hk hlt
  rw [List.get_eq_getElem, hki, hi, Option.some.injEq] at hg
  subst hg
  exact ⟨k, _, by rw [List.getElem?_eq_getElem hk, hki], List.getElem?_eq_getElem hlt, hdescribes⟩

theorem reported_of_flaw {c : Config} {i : Nat} {f : Filter} {flaw : Flaw}
    (hi : c.filters[i]? = some f) (h : flaw ∈ (f.check c.declaredParams).flaws) :
    flaw.at .filters i ∈ c.resolve.diagnostics := by
  apply mem_diagnostics.mpr
  refine .inr (.inr ⟨.filters, Survey.mem_reports.mpr ⟨i, f.check c.declaredParams, ?_, flaw, h, rfl⟩⟩)
  rw [List.getElem?_map, hi]
  rfl

end Config

/-- A filter without a value has a leaf and is reported, and its text has no place for the value,
unless it is a list of something other than literals: then the brackets stay. -/
theorem half_typed_filter (c : Config) (i : Nat) (f : Config.Filter) (operator : Operator)
    (hi : c.filters[i]? = some f) (henabled : f.enabled = true)
    (hcolumn : isColumnPath (trim f.column) = true) (hoperator : f.operator = some operator)
    (harity : operator.arity ≠ .none) (hblank : blank f.value = true)
    (hbound : operator.arity = .range → f.BoundFits) :
    (∃ (k : Nat) (comparison : Comparison), (c.kept .filters)[k]? = some i ∧
      c.resolve.endpoint.query.filter.comparisons[k]? = some comparison ∧
      comparison.sql = f.partialSql operator ++
        if operator.arity = .list ∧ f.source ≠ .static then " ()" else "") ∧
    ∃ d ∈ c.resolve.diagnostics, d.location.path = "filters[" ++ toString i ++ "].value" ∧
      d.problem.message = "value is required" := by
  have hcheck : f.check c.declaredParams = _ :=
    Config.Filter.check_eq henabled hcolumn hoperator
  rw [Config.Filter.checkComparison_of_safe hcolumn] at hcheck
  have hoperand : (f.checkOperand c.declaredParams operator).result = _ :=
    Config.Filter.checkOperand_of_blank hblank hbound
  constructor
  · have hresult : (f.check c.declaredParams).result = some ⟨⟨⟨trim f.column, hcolumn⟩, operator,
        f.emptyOperand operator.arity⟩, f.connective, f.groupName, f.startsGroup⟩ := by
      rw [hcheck, Check.map_result, Check.bind_result, hoperand]
      rfl
    obtain ⟨k, ⟨column, operator', operand⟩, hk, hleaf, ho, htext, hdescribed⟩ :=
      Config.exists_leaf hi hresult
    obtain rfl : operator = operator' := Option.some.inj (hoperator.symm.trans ho)
    obtain rfl : f.emptyOperand operator.arity = operand :=
      Option.some.inj (hoperand.symm.trans hdescribed)
    exact ⟨k, _, hk, hleaf, Config.Filter.sql_of_emptyOperand htext harity⟩
  · have hflaw : ⟨.value, .noValue⟩ ∈ (f.check c.declaredParams).flaws := by
      rw [hcheck, Check.map_flaws, Check.bind_flaws]
      exact List.mem_append_left _ (Config.Filter.noValue_of_blank hblank harity)
    refine ⟨_, Config.reported_of_flaw hi hflaw, ?_, rfl⟩
    exact Config.Filter.path_of_value i

def halfTypedRange : Config.Filter where
  column := " u.age\t"
  operator := some .notBetween
  source := .parameter
  value := " \n"
  secondValue := some " :high "
  group := some "g"

def halfTypedRangeConfig : Config where
  filters := [
    { column := "1=1", operator := some .eq, value := "x", group := some "g" },
    { column := "id", operator := some .isNull, group := some "g" },
    { column := "", operator := some .eq },
    halfTypedRange]

theorem halfTypedRangeConfig_sql :
    (∃ (k : Nat) (comparison : Comparison), (halfTypedRangeConfig.kept .filters)[k]? = some 3 ∧
      halfTypedRangeConfig.resolve.endpoint.query.filter.comparisons[k]? = some comparison ∧
      comparison.sql = "u.age NOT BETWEEN AND \x7b\x7bhigh\x7d\x7d") ∧
    ∃ d ∈ halfTypedRangeConfig.resolve.diagnostics, d.location.path = "filters[3].value" ∧
      d.problem.message = "value is required" := by
  have hbound : halfTypedRange.BoundFits := by
    rintro text ⟨⟩
    decide
  obtain ⟨⟨k, comparison, hk, hleaf, hsql⟩, d, hd, hpath, hmessage⟩ :=
    half_typed_filter halfTypedRangeConfig 3 halfTypedRange .notBetween rfl rfl (by decide) rfl
      (by decide) (by decide) fun _ => hbound
  exact ⟨⟨k, comparison, hk, hleaf, hsql.trans (by decide)⟩, d, hd, hpath, hmessage⟩

def halfTypedListConfig : Config where
  filters := [{ column := "a", operator := some .inList, source := .function }]

theorem empty_brackets_stay :
    halfTypedListConfig.resolve.endpoint.query.filter.comparisons.map Comparison.sql = ["a IN ()"] ∧
      halfTypedListConfig.filters.map (·.partialSql .inList) = ["a IN"] ∧ "a IN ()" ≠ "a IN" := by
  decide

end EndpointPreview
