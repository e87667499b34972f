import EndpointPreview.Example.Url
import EndpointPreview.Proofs.HalfTypedFilters
/-!
The filter that the example URL shows. It is the first one that is not set by a parameter, and what
counts for that are the values of its comparison, so a filter that should be set by a parameter
and has no value yet is taken for one that is not.
-/

namespace EndpointPreview

open Text

theorem find?_not_and_eq_iff {α : Type} (p q : α → Bool) (xs : List α) :
    (xs.find? fun a => !(p a && q a)) = (xs.find? fun a => !p a) ↔
      ∀ a ∈ xs.takeWhile p, q a = true := by
  induction xs with
  | nil => simp
  | cons a xs ih =>
    cases hp : p a with
    | false => simp [hp]
    | true =>
      cases hq : q a with
      | false =>
        -- The second search goes on, and what it finds is not `a`.
        have hne : some a ≠ xs.find? fun a => !p a := by
          intro he
          have hfound := List.find?_some he.symm
          rw [hp] at hfound
          cases hfound
        simp [hp, hq, hne]
      | true => simpa [hp, hq] using ih

theorem checkValue_isParam {declared : List String} {source : ValueSource} {part : Part}
    {text : String} {v : Value} (h : (checkValue declared source part text).result = some v) :
    v.isParam = (source == .parameter && !blank text) := by
  by_cases hblank : blank text = true
  · rw [checkValue_of_blank hblank] at h
    cases h
    rw [hblank, Bool.not_true, Bool.and_false]
    rfl
  · rw [Bool.not_eq_true] at hblank
    rw [checkValue_of_filled (filled_eq_some.mpr ⟨hblank, rfl⟩)] at h
    rw [hblank, Bool.not_false, Bool.and_true]
    cases source with
    | static =>
      cases h
      rfl
    | parameter =>
      dsimp only [ValueSource.value?] at h
      obtain ⟨name, -, rfl⟩ := Option.map_eq_some_iff.mp h
      rfl
    | function =>
      dsimp only [ValueSource.value?] at h
      obtain ⟨function, -, rfl⟩ := Option.map_eq_some_iff.mp h
      rfl

namespace Config.Filter

variable {declared : List String} {f : Filter} {operator : Operator}

def takesParam (f : Filter) : Bool :=
  f.source == .parameter && f.operator.any (·.arity ≠ .none)

def hasValue (f : Filter) : Bool :=
  !blank f.value || (f.operator.any (·.arity = .range) && (f.secondValue.bind filled).isSome)

theorem usesParam_of_checkRange {low : Value} {high : Option Value}
    (h : (f.checkRange declared operator).result = some (low, high)) :
    (low.isParam || high.any Value.isParam) =
      (f.source == .parameter && (!blank f.value || (f.secondValue.bind filled).isSome)) := by
  unfold checkRange at h
  rw [Check.bind_result] at h
  obtain ⟨first, hfirst, h⟩ := Option.bind_eq_some_iff.mp h
  have hlow := checkValue_isParam hfirst
  split at h
  · next text htext =>
    rw [Check.bind_result] at h
    obtain ⟨second, hsecond, h⟩ := Option.bind_eq_some_iff.mp h
    cases h
    obtain ⟨s, -, hs⟩ := Option.bind_eq_some_iff.mp htext
    have hblank : blank text = false := (filled_eq_some.mp (filled_of_filled hs)).1
    have hhigh := checkValue_isParam hsecond
    rw [hblank, Bool.not_false] at hhigh
    rw [hlow, htext, Option.any_some, hhigh, ← Bool.and_or_distrib_left, Option.isSome_some]
  · next hnone =>
    cases h
    rw [hlow, hnone]
    simp

theorem usesParam_of_checkOperand {operand : Operand} (hoperator : f.operator = some operator)
    (h : (f.checkOperand declared operator).result = some operand) :
    operand.values.any Value.isParam = (f.takesParam && f.hasValue) := by
  rw [takesParam, hasValue, hoperator, Option.any_some, Option.any_some]
  unfold checkOperand at h
  cases harity : operator.arity with
  | none =>
    rw [harity] at h
    cases h
    simp [Operand.values]
  | single =>
    rw [harity] at h
    obtain ⟨v, hv, rfl⟩ := Option.map_eq_some_iff.mp h
    simp [Operand.values, checkValue_isParam hv]
  | range =>
    rw [harity] at h
    obtain ⟨⟨low, high⟩, hrange, rfl⟩ := Option.map_eq_some_iff.mp h
    have hvalues := usesParam_of_checkRange hrange
    cases high <;> simpa [Operand.values] using hvalues
  | list =>
    rw [harity] at h
    obtain ⟨vs, hvs, rfl⟩ := Option.map_eq_some_iff.mp h
    cases hasOperand_of_checkList harity hvs with
    | literals _ hs =>
      have hstatic : (ValueSource.static == .parameter) = false := rfl
      simp [Operand.values, hs, hstatic, Value.isParam]
    | reference _ _ hv => simp [Operand.values, checkValue_isParam hv]

end Config.Filter

theorem Survivor.usesParam_eq {c : Config} {s : Survivor} (h : s ∈ c.survivors) :
    s.comparison.usesParam = (s.filter.takesParam && s.filter.hasValue) := by
  obtain ⟨hoperator, -, hoperand⟩ := Config.describes_of_survivor h
  exact Config.Filter.usesParam_of_checkOperand hoperator hoperand

theorem Config.filterPair_eq (c : Config) :
    c.resolve.endpoint.filterPair =
      (c.survivors.find? fun s => !(s.filter.takesParam && s.filter.hasValue)).map
        (·.comparison.pair) := by
  have hfind : (c.survivors.find? fun s => !s.comparison.usesParam) =
      c.survivors.find? fun s => !(s.filter.takesParam && s.filter.hasValue) := by
    rw [← List.head?_filter, ← List.head?_filter]
    congr 1
    apply List.filter_congr
    intro s hs
    rw [s.usesParam_eq hs]
  rw [Endpoint.filterPair, c.filter_comparisons, List.find?_map, Option.map_map]
  exact congrArg _ hfind

/-- The pair at the end of a URL is that of the first filter that takes no parameter, or takes one
and has no value yet. It is the first that takes no parameter exactly if every filter before that
one has a value. -/
theorem filter_shown (c : Config) :
    let e := c.resolve.endpoint
    let shown := c.survivors.find? fun s => !(s.filter.takesParam && s.filter.hasValue)
    e.pairs = { e with query := { e.query with filter := [] } }.pairs ++ e.filterPair.toList ∧
      e.filterPair = shown.map (·.comparison.pair) ∧
      (shown = (c.survivors.find? fun s => !s.filter.takesParam) ↔
        ∀ s ∈ c.survivors.takeWhile (·.filter.takesParam), s.filter.hasValue = true) := by
  refine ⟨?_, c.filterPair_eq, find?_not_and_eq_iff _ _ _⟩
  simp [Endpoint.pairs, Endpoint.pageSize, Endpoint.fieldsPair, Endpoint.filterPair,
    Chain.comparisons, comparisonsOf]

def unsetParameterConfig : Config where
  filters := [{ column := "age", operator := some .gte, source := .parameter, value := " " }]

theorem unset_parameter_shown :
    unsetParameterConfig.survivors.map (·.filter.takesParam) = [true] ∧
      unsetParameterConfig.resolve.endpoint.pairs = [("age[gte]", "")] := by
  decide

end EndpointPreview
