import EndpointPreview.Example.Url
import EndpointPreview.Proofs.Alike
import EndpointPreview.Proofs.WellFormed
/-!
What an empty list of diagnostics is worth. A check that reports nothing has filled every place of
the node it yields, so a query without diagnostics has no gaps, and each parameter that it refers to
is one that a request can set.
-/

namespace EndpointPreview

namespace Check

variable {α β : Type}

def clean (c : Check α) : Option α :=
  if c.flaws = [] then c.result else none

theorem clean_of_flaws {c : Check α} (h : c.flaws = []) : c.clean = c.result :=
  if_pos h

@[simp] theorem clean_pass (a : α) : (pass a).clean = some a := rfl

@[simp] theorem clean_pure (a : α) : (pure a : Check α).clean = some a := rfl

@[simp] theorem clean_refuse (part : Part) (problem : Problem) :
    (refuse part problem : Check α).clean = none := rfl

@[simp] theorem clean_report (part : Part) (problem : Problem) (a : α) :
    (report part problem a).clean = none := rfl

@[simp] theorem clean_map (f : α → β) (c : Check α) : (c.map f).clean = c.clean.map f := by
  unfold clean
  rw [map_flaws, map_result]
  split <;> rfl

@[simp] theorem clean_bind (c : Check α) (next : α → Check β) :
    (c >>= next).clean = c.clean.bind fun a => (next a).clean := by
  change (c.bind next).clean = _
  unfold clean bind
  cases c.result with
  | none => simp
  | some a =>
    by_cases h : c.flaws = []
    · simp [h]
    · simp [h]

end Check

namespace Survey

variable {α σ : Type} {list : EntryList} {check : σ → Check α} {entries : List σ}

theorem flaws_of_reports {checks : List (Check α)} (h : reports list 0 checks = [])
    {checked : Check α} (hc : checked ∈ checks) : checked.flaws = [] := by
  obtain ⟨i, hi⟩ := List.mem_iff_getElem?.mp hc
  rw [List.eq_nil_iff_forall_not_mem]
  intro flaw hflaw
  have hmem : flaw.at list i ∈ reports list 0 checks :=
    mem_reports.mpr ⟨i, checked, hi, flaw, hflaw, rfl⟩
  rw [h] at hmem
  cases hmem

theorem exists_clean_of_mem_results {a : α} (h : (each list check entries).diagnostics = [])
    (ha : a ∈ (each list check entries).results) :
    ∃ entry ∈ entries, (check entry).clean = some a := by
  obtain ⟨entry, hentry, hresult⟩ := mem_each_results.mp ha
  rw [each_eq] at h
  have hflaws := flaws_of_reports h (List.mem_map_of_mem hentry)
  exact ⟨entry, hentry, by rw [Check.clean_of_flaws hflaws, hresult]⟩

end Survey

structure Value.Filled (declared : List String) (v : Value) : Prop where
  present : v ≠ .missing
  declared : ∀ name, v = .param name → name ∈ declared

structure Operand.Filled (declared : List String) (operand : Operand) : Prop where
  values : ∀ v ∈ operand.values, v.Filled declared
  listed : operand ≠ .list []
  bounded : ∀ low, operand ≠ .range low .none

section

variable {declared : List String} {source : ValueSource} {part : Part} {text : String} {v : Value}

theorem checkValue_clean (h : (checkValue declared source part text).clean = some v) :
    v.Filled declared := by
  unfold checkValue at h
  split at h
  · cases h
  · split at h
    · cases h
      exact ⟨nofun, nofun⟩
    · split at h
      · cases h
      · split at h
        · next hmem =>
          cases h
          refine ⟨nofun, ?_⟩
          rintro _ ⟨⟩
          exact hmem
        · cases h
    · split at h
      · cases h
      · cases h
        exact ⟨nofun, nofun⟩

end

namespace Config

namespace Filter

variable {declared : List String} {f : Filter} {operator : Operator}

theorem checkRange_clean {low : Value} {high : Option Value}
    (h : (f.checkRange declared operator).clean = some (low, high)) :
    Operand.Filled declared (.range low high) := by
  unfold checkRange at h
  rw [Check.clean_bind] at h
  obtain ⟨first, hfirst, h⟩ := Option.bind_eq_some_iff.mp h
  split at h
  · rw [Check.clean_bind] at h
    obtain ⟨second, hsecond, h⟩ := Option.bind_eq_some_iff.mp h
    cases h
    refine ⟨?_, nofun, nofun⟩
    intro v hv
    simp only [Operand.values, Option.toList_some, List.mem_cons, List.not_mem_nil, or_false] at hv
    rcases hv with rfl | rfl
    · exact checkValue_clean hfirst
    · exact checkValue_clean hsecond
  · cases h

theorem checkList_clean {vs : List Value} (h : (f.checkList declared).clean = some vs) :
    Operand.Filled declared (.list vs) := by
  unfold checkList at h
  split at h
  · dsimp only at h
    split at h
    · cases h
    · next hne =>
      cases h
      refine ⟨?_, by simpa using hne, nofun⟩
      intro v hv
      obtain ⟨text, -, rfl⟩ := List.mem_map.mp hv
      exact ⟨nofun, nofun⟩
  · rw [Check.clean_map] at h
    obtain ⟨v, hv, rfl⟩ := Option.map_eq_some_iff.mp h
    refine ⟨?_, nofun, nofun⟩
    intro w hw
    rw [List.mem_singleton.mp hw]
    exact checkValue_clean hv

theorem checkOperand_clean {operand : Operand}
    (h : (f.checkOperand declared operator).clean = some operand) : operand.Filled declared := by
  unfold checkOperand at h
  split at h
  · cases h
    exact ⟨nofun, nofun, nofun⟩
  · rw [Check.clean_map] at h
    obtain ⟨v, hv, rfl⟩ := Option.map_eq_some_iff.mp h
    refine ⟨?_, nofun, nofun⟩
    intro w hw
    rw [List.mem_singleton.mp hw]
    exact checkValue_clean hv
  · rw [Check.clean_map] at h
    obtain ⟨⟨low, high⟩, hrange, rfl⟩ := Option.map_eq_some_iff.mp h
    exact checkRange_clean hrange
  · rw [Check.clean_map] at h
    obtain ⟨vs, hvs, rfl⟩ := Option.map_eq_some_iff.mp h
    exact checkList_clean hvs

theorem check_clean {clause : Clause} (h : (f.check declared).clean = some clause) :
    clause.comparison.operand.Filled declared := by
  unfold check at h
  split at h
  · cases h
  · split at h
    · rw [Check.clean_map] at h
      obtain ⟨comparison, hcomparison, rfl⟩ := Option.map_eq_some_iff.mp h
      unfold checkComparison at hcomparison
      rw [Check.clean_bind] at hcomparison
      obtain ⟨column, -, hcomparison⟩ := Option.bind_eq_some_iff.mp hcomparison
      rw [Check.clean_bind] at hcomparison
      obtain ⟨operand, hoperand, hcomparison⟩ := Option.bind_eq_some_iff.mp hcomparison
      cases hcomparison
      exact checkOperand_clean hoperand
    · cases h

end Filter

theorem filled_of_no_diagnostics {c : Config} (h : c.resolve.diagnostics = [])
    {comparison : Comparison} (hc : comparison ∈ c.resolve.endpoint.query.filter.comparisons) :
    comparison.operand.Filled c.declaredParams := by
  have hquiet : c.filterSurvey.diagnostics = [] := by
    rw [resolve_diagnostics] at h
    simp only [List.append_eq_nil_iff] at h
    exact h.1.1.1.2
  rw [clause_comparisons] at hc
  obtain ⟨clause, hclause, rfl⟩ := List.mem_map.mp hc
  obtain ⟨f, -, hf⟩ := Survey.exists_clean_of_mem_results hquiet hclause
  exact Filter.check_clean hf

theorem source_of_no_diagnostics {c : Config} (h : c.checkSource.2 = [])
    (hfilled : Text.blank c.primaryTable = false) :
    ∃ source, c.checkSource.1 = some source ∧
      (source.asName.isSome = true ↔ ∃ text ∈ c.primaryName, Text.blank text = false) := by
  have hname : (c.primaryName.bind Text.filled).isSome = true ↔
      ∃ text ∈ c.primaryName, Text.blank text = false := by
    cases c.primaryName with
    | none => simp
    | some text => cases hb : Text.blank text <;> simp [Text.filled, hb]
  rw [← hname]
  unfold checkSource at h ⊢
  split at h
  · next hnone =>
    rw [filled_eq_none, hfilled] at hnone
    cases hnone
  · split at h
    · cases h
    · split at h
      · next hnone => simp [hnone]
      · next hsome =>
        split at h
        · simp [hsome]
        · cases h

theorem limit_le_maxLimit {c : Config} {l : Limit} (hl : c.limit = some l) (hp : l.paged = true)
    (hmax : 0 < c.pagination.maxLimit) : l.count ≤ c.pagination.maxLimit := by
  have hcapped : ∀ count hard, capped count hard ≤ count := by
    intro count hard
    cases hard with
    | none => exact UInt32.le_refl _
    | some greatest => exact Std.min_le_left
  unfold limit at hl
  dsimp only at hl
  split at hl
  · cases hl
    apply UInt32.le_trans (hcapped _ _)
    split
    · exact UInt32.le_refl _
    · next hnot => simpa [Pagination.isTooHigh, hmax] using hnot
  · obtain ⟨count, -, rfl⟩ := Option.map_eq_some_iff.mp hl
    cases hp

end Config

theorem Endpoint.key_of_param {e : Endpoint} {p : Config.Param} (h : p ∈ e.params) :
    p.name ∈ e.pairs.map Prod.fst := by
  have hpair : (p.name, p.example) ∈ e.pairs := by
    simp only [pairs, List.mem_append, List.mem_map]
    exact .inl (.inl (.inl (.inl (.inl ⟨p, h, rfl⟩))))
  exact List.mem_map_of_mem (f := Prod.fst) hpair

/-- With no diagnostics the filters are complete and their parameters can be set, the table and its
name are there if they are wanted, and a page is no longer than allowed. -/
theorem complete_of_no_diagnostics (c : Config) (h : c.resolve.diagnostics = []) :
    let e := c.resolve.endpoint
    (∀ comparison ∈ e.query.filter.comparisons,
      .missing ∉ comparison.operand.values ∧ comparison.operand ≠ .list [] ∧
      (∀ low, comparison.operand ≠ .range low none) ∧
      ∀ name, .param name ∈ comparison.operand.values →
        (∃ p ∈ e.params, p.name = name) ∧ name ∈ e.pairs.map Prod.fst) ∧
    (Text.blank c.primaryTable = false → ∃ source, e.query.source = some source ∧
      (source.asName.isSome = true ↔ ∃ text ∈ c.primaryName, Text.blank text = false)) ∧
    (∀ l, e.query.limit = some l → l.paged = true → 0 < c.pagination.maxLimit →
      l.count ≤ c.pagination.maxLimit) := by
  intro e
  refine ⟨?_, ?_, ?_⟩
  · intro comparison hc
    have hfilled := Config.filled_of_no_diagnostics h hc
    refine ⟨?_, hfilled.listed, hfilled.bounded, ?_⟩
    · intro hmissing
      exact (hfilled.values _ hmissing).present rfl
    · intro name hname
      have hdeclared := (hfilled.values _ hname).declared name rfl
      obtain ⟨f, -, -, -, hoperand⟩ := Config.exists_filter_of_comparison hc
      have hsafe : Value.Sound (.param name) := hoperand.fits.values _ hname
      obtain ⟨p, hp, rfl⟩ := (Config.mem_declaredParams hsafe).mp hdeclared
      exact ⟨⟨p, hp, rfl⟩, Endpoint.key_of_param hp⟩
  · apply Config.source_of_no_diagnostics
    rw [Config.resolve_diagnostics] at h
    simp only [List.append_eq_nil_iff] at h
    exact h.1.1.1.1.1.1
  · intro l hl
    exact Config.limit_le_maxLimit hl

def completeConfig : Config where
  primaryTable := " users "
  primaryName := some "u"
  filters := [
    { column := "age", operator := some .between, source := .parameter, value := ":low",
      secondValue := some "high" },
    { column := "state", operator := some .inList, value := "'a,b', c", group := some "g" },
    { column := "born", operator := some .lt, source := .function, value := "now()",
      group := some "g", connective := .or },
    { column := "role", operator := some .notInList, source := .parameter,
      value := "\x7b\x7b role \x7d\x7d" }]
  pagination := { enabled := true, defaultLimit := 50, maxLimit := 50 }
  params := [{ name := "low" }, { name := "\thigh " }, { name := "role " }]

theorem completeConfig_complete :
    completeConfig.resolve.diagnostics = [] ∧
      (∀ comparison ∈ completeConfig.resolve.endpoint.query.filter.comparisons,
        .missing ∉ comparison.operand.values) ∧
      "high" ∈ completeConfig.resolve.endpoint.pairs.map Prod.fst ∧
      (∃ source, completeConfig.resolve.endpoint.query.source = some source ∧
        source.asName.isSome = true) ∧
      completeConfig.resolve.endpoint.query.limit = some ⟨50, true⟩ := by
  have hnone : completeConfig.resolve.diagnostics = [] := by decide +kernel
  obtain ⟨hfilters, hsource, -⟩ := complete_of_no_diagnostics completeConfig hnone
  obtain ⟨source, hsource, hname⟩ := hsource (by decide)
  have hlast : ⟨⟨"age", by decide⟩, .between, .range (.param "low") (some (.param "high"))⟩ ∈
      completeConfig.resolve.endpoint.query.filter.comparisons := by decide +kernel
  refine ⟨hnone, fun comparison hc => (hfilters comparison hc).1, ?_, ?_, by decide⟩
  · exact ((hfilters _ hlast).2.2.2 "high" (by decide)).2
  · exact ⟨source, hsource, hname.mpr (by decide)⟩

end EndpointPreview
