import EndpointPreview.Proofs.FilterRuns
/-!
No entry is lost in silence. Every enabled and complete entry has one node in the query or a
diagnostic of its own, the nodes stand in the order of their entries, and nothing else has a node
or a diagnostic.
-/

namespace EndpointPreview

namespace Survey

variable {α σ : Type} {list : EntryList} {entries : List σ} {checks : List (Check α)}
  {enabled wanted : σ → Prop} {Describes : σ → α → Prop}

theorem checked_of_entry {R : σ → Check α → Prop} (h : List.Forall₂ R entries checks) {i : Nat}
    {entry : σ} (hi : entries[i]? = some entry) :
    ∃ checked, checks[i]? = some checked ∧ R entry checked := by
  obtain ⟨hlt, rfl⟩ := List.getElem?_eq_some_iff.mp hi
  have hlt' : i < checks.length := h.length_eq ▸ hlt
  exact ⟨checks[i], List.getElem?_eq_getElem hlt', h.get hlt hlt'⟩

theorem entry_of_checked {R : σ → Check α → Prop} (h : List.Forall₂ R entries checks) {i : Nat}
    {checked : Check α} (hi : checks[i]? = some checked) :
    ∃ entry, entries[i]? = some entry ∧ R entry checked := by
  obtain ⟨hlt, rfl⟩ := List.getElem?_eq_some_iff.mp hi
  have hlt' : i < entries.length := h.length_eq ▸ hlt
  exact ⟨entries[i], List.getElem?_eq_getElem hlt', h.get hlt' hlt⟩

def Answered (enabled wanted : σ → Prop) (Describes : σ → α → Prop) (entries : List σ)
    (checks : List (Check α)) : Prop :=
  List.Forall₂ (fun entry checked => checked.Answers (enabled entry) (wanted entry)
    (Describes entry)) entries checks

theorem answered_map {check : σ → Check α}
    (h : ∀ entry, (check entry).Answers (enabled entry) (wanted entry) (Describes entry)) :
    Answered enabled wanted Describes entries (entries.map check) :=
  List.forall₂_map_right_iff.mpr (List.forall₂_same.mpr fun entry _ => h entry)

variable (h : Answered enabled wanted Describes entries checks)

include h

theorem kept_or_reported {i : Nat} {entry : σ} (hi : entries[i]? = some entry)
    (hw : wanted entry) :
    i ∈ kept 0 (yields checks) ∨ ∃ d ∈ reports list 0 checks, ∃ part, d.location = .entry list i part := by
  obtain ⟨checked, hc, hanswers⟩ := checked_of_entry h hi
  cases hresult : checked.result with
  | some a =>
    left
    rw [mem_kept, yields_getElem?]
    exact ⟨checked, hc, by rw [hresult]; rfl⟩
  | none =>
    right
    obtain ⟨flaw, hflaw⟩ := List.exists_mem_of_ne_nil _ (hanswers.loud hw hresult)
    exact ⟨flaw.at list i, mem_reports.mpr ⟨i, checked, hc, flaw, hflaw, rfl⟩, flaw.part, rfl⟩

theorem wanted_of_kept {i : Nat} (hi : i ∈ kept 0 (yields checks)) :
    ∃ entry, entries[i]? = some entry ∧ wanted entry := by
  rw [mem_kept, yields_getElem?] at hi
  obtain ⟨checked, hc, hsome⟩ := hi
  obtain ⟨a, ha⟩ := Option.isSome_iff_exists.mp hsome
  obtain ⟨entry, he, hanswers⟩ := entry_of_checked h hc
  exact ⟨entry, he, hanswers.wanted a ha⟩

theorem results_described :
    List.Forall₂ (fun i a => ∃ entry, entries[i]? = some entry ∧ Describes entry a)
      (kept 0 (yields checks)) (checks.filterMap Check.result) := by
  apply (forall₂_kept 0 checks).imp
  rintro i a ⟨checked, hc, ha⟩
  rw [List.mem_zipIdx_iff_getElem?] at hc
  obtain ⟨entry, he, hanswers⟩ := entry_of_checked h hc
  exact ⟨entry, he, hanswers.describes a ha⟩

theorem enabled_of_reported {d : Diagnostic} (hd : d ∈ reports list 0 checks) :
    ∃ i part entry, d.location = .entry list i part ∧ entries[i]? = some entry ∧ enabled entry := by
  obtain ⟨i, checked, hc, flaw, hflaw, rfl⟩ := mem_reports.mp hd
  obtain ⟨entry, he, hanswers⟩ := entry_of_checked h hc
  refine ⟨i, flaw.part, entry, rfl, he, ?_⟩
  by_contra hne
  rw [hanswers.quiet hne] at hflaw
  cases hflaw

end Survey

namespace Config

/-- An enabled and complete entry; for a join there must be a table to join with. -/
def IsWanted (c : Config) : EntryList → Nat → Prop
  | .fields, i => ∃ f, c.fields[i]? = some f ∧ f.enabled = true ∧ f.isComplete = true
  | .joins, i => ∃ j, c.joins[i]? = some j ∧ j.enabled = true ∧ j.isComplete = true ∧
      c.resolve.endpoint.query.source.isSome = true
  | .filters, i => ∃ f, c.filters[i]? = some f ∧ f.enabled = true ∧ f.isComplete = true
  | .sorting, i => ∃ s, c.sorting[i]? = some s ∧ s.enabled = true ∧ s.isComplete = true
  | .params, i => ∃ p, c.params[i]? = some p ∧ p.enabled = true ∧ p.isComplete = true

def IsEnabled (c : Config) : EntryList → Nat → Prop
  | .fields, i => ∃ f, c.fields[i]? = some f ∧ f.enabled = true
  | .joins, i => ∃ j, c.joins[i]? = some j ∧ j.enabled = true
  | .filters, i => ∃ f, c.filters[i]? = some f ∧ f.enabled = true
  | .sorting, i => ∃ s, c.sorting[i]? = some s ∧ s.enabled = true
  | .params, i => ∃ p, c.params[i]? = some p ∧ p.enabled = true

structure HasNodes (c : Config) (e : Endpoint) : Prop where
  fields : List.Forall₂ (fun i p => ∃ f, c.fields[i]? = some f ∧ f.Describes p)
    (c.kept .fields) e.query.projection
  joins : List.Forall₂ (fun i clause => ∃ j, c.joins[i]? = some j ∧
    j.Describes e.query.source clause) (c.kept .joins) e.query.joins
  filters : List.Forall₂ (fun i comparison => ∃ f, c.filters[i]? = some f ∧
    f.Describes c.declaredParams comparison) (c.kept .filters) e.query.filter.comparisons
  sorting : List.Forall₂ (fun i item => ∃ s, c.sorting[i]? = some s ∧ s.Describes item)
    (c.kept .sorting) e.query.orderBy
  params : List.Forall₂ (fun i q => ∃ p, c.params[i]? = some p ∧ p.Describes q)
    (c.kept .params) e.params

theorem fields_answered (c : Config) :
    Survey.Answered (fun f : Field => f.enabled = true)
      (fun f => f.enabled = true ∧ f.isComplete = true) Field.Describes c.fields
      (Survey.checks Field.check [] c.fields) := by
  apply (Survey.forall₂_checks Field.check [] c.fields).imp
  rintro f _ ⟨before, rfl⟩
  exact f.check_answers before

theorem joins_answered (c : Config) :
    Survey.Answered (fun j : Join => j.enabled = true)
      (fun j => j.enabled = true ∧ j.isComplete = true ∧ c.checkSource.1.isSome = true)
      (fun j => j.Describes c.checkSource.1) c.joins (c.joins.map (Join.check c.checkSource.1)) :=
  Survey.answered_map fun j => j.check_answers _

theorem filters_answered (c : Config) :
    Survey.Answered (fun f : Filter => f.enabled = true)
      (fun f => f.enabled = true ∧ f.isComplete = true)
      (fun f clause => f.Describes c.declaredParams clause.comparison) c.filters
      (c.filters.map (Filter.check c.declaredParams)) :=
  Survey.answered_map fun f => f.check_answers _

theorem sorting_answered (c : Config) :
    Survey.Answered (fun s : SortKey => s.enabled = true)
      (fun s => s.enabled = true ∧ s.isComplete = true) SortKey.Describes c.sorting
      (c.sorting.map SortKey.check) :=
  Survey.answered_map SortKey.check_answers

theorem params_answered (c : Config) :
    Survey.Answered (fun p : Param => p.enabled = true)
      (fun p => p.enabled = true ∧ p.isComplete = true) Param.Describes c.params
      (c.params.map Param.check) :=
  Survey.answered_map Param.check_answers

theorem kept_or_reported {c : Config} {list : EntryList} {i : Nat} (h : c.IsWanted list i) :
    i ∈ c.kept list ∨ ∃ d ∈ c.reports list, ∃ part, d.location = .entry list i part := by
  cases list with
  | fields =>
    obtain ⟨f, hi, hw⟩ := h
    exact Survey.kept_or_reported c.fields_answered hi hw
  | joins =>
    obtain ⟨j, hi, hw⟩ := h
    exact Survey.kept_or_reported c.joins_answered hi hw
  | filters =>
    obtain ⟨f, hi, hw⟩ := h
    exact Survey.kept_or_reported c.filters_answered hi hw
  | sorting =>
    obtain ⟨s, hi, hw⟩ := h
    exact Survey.kept_or_reported c.sorting_answered hi hw
  | params =>
    obtain ⟨p, hi, hw⟩ := h
    exact Survey.kept_or_reported c.params_answered hi hw

theorem wanted_of_kept {c : Config} {list : EntryList} {i : Nat} (h : i ∈ c.kept list) :
    c.IsWanted list i := by
  cases list with
  | fields => exact Survey.wanted_of_kept c.fields_answered h
  | joins => exact Survey.wanted_of_kept c.joins_answered h
  | filters => exact Survey.wanted_of_kept c.filters_answered h
  | sorting => exact Survey.wanted_of_kept c.sorting_answered h
  | params => exact Survey.wanted_of_kept c.params_answered h

theorem enabled_of_reported {c : Config} {list : EntryList} {d : Diagnostic}
    (h : d ∈ c.reports list) : ∃ i part, c.IsEnabled list i ∧ d.location = .entry list i part := by
  cases list with
  | fields =>
    obtain ⟨i, part, f, hd, hi, he⟩ := Survey.enabled_of_reported c.fields_answered h
    exact ⟨i, part, ⟨f, hi, he⟩, hd⟩
  | joins =>
    obtain ⟨i, part, j, hd, hi, he⟩ := Survey.enabled_of_reported c.joins_answered h
    exact ⟨i, part, ⟨j, hi, he⟩, hd⟩
  | filters =>
    obtain ⟨i, part, f, hd, hi, he⟩ := Survey.enabled_of_reported c.filters_answered h
    exact ⟨i, part, ⟨f, hi, he⟩, hd⟩
  | sorting =>
    obtain ⟨i, part, s, hd, hi, he⟩ := Survey.enabled_of_reported c.sorting_answered h
    exact ⟨i, part, ⟨s, hi, he⟩, hd⟩
  | params =>
    obtain ⟨i, part, p, hd, hi, he⟩ := Survey.enabled_of_reported c.params_answered h
    exact ⟨i, part, ⟨p, hi, he⟩, hd⟩

theorem clause_comparisons (c : Config) :
    c.resolve.endpoint.query.filter.comparisons = c.filterSurvey.results.map Clause.comparison := by
  rw [c.filter_comparisons, c.filterSurvey_results, List.map_map]
  rfl

theorem hasNodes (c : Config) : c.HasNodes c.resolve.endpoint where
  fields := by
    rw [resolve_endpoint, selection, Survey.of_eq]
    exact Survey.results_described c.fields_answered
  joins := by
    rw [resolve_endpoint, joinSurvey, Survey.each_eq]
    exact Survey.results_described c.joins_answered
  filters := by
    rw [clause_comparisons, filterSurvey, Survey.each_eq, List.forall₂_map_right_iff]
    exact Survey.results_described c.filters_answered
  sorting := by
    rw [resolve_endpoint, orderSurvey, Survey.each_eq]
    exact Survey.results_described c.sorting_answered
  params := by
    rw [resolve_endpoint, paramSurvey, Survey.each_eq]
    exact Survey.results_described c.params_answered

end Config

/-- Wanted entries have a node or a diagnostic of their own, nodes have their entries in order, and
diagnostics have a place that exists. -/
theorem no_silent_loss (c : Config) :
    (∀ list i, c.IsWanted list i → i ∈ c.kept list ∨
      ∃ d ∈ c.resolve.diagnostics, ∃ part : Part,
        d.location.path = s!"{list.key}[{i}].{part.key}") ∧
    (∀ list, (c.kept list).Pairwise (· < ·) ∧ ∀ i ∈ c.kept list, c.IsWanted list i) ∧
    c.HasNodes c.resolve.endpoint ∧
    (∀ d ∈ c.resolve.diagnostics,
      d.location.path ∈ ["primaryTable", "primaryTableAlias", "pagination.defaultLimit"] ∨
      ∃ list i, ∃ part : Part, c.IsEnabled list i ∧
        d.location.path = s!"{list.key}[{i}].{part.key}") := by
  refine ⟨?_, ?_, c.hasNodes, ?_⟩
  · intro list i h
    apply (Config.kept_or_reported h).imp_right
    rintro ⟨d, hd, part, hlocation⟩
    exact ⟨d, Config.mem_diagnostics.mpr (.inr (.inr ⟨list, hd⟩)), part, by rw [hlocation]; rfl⟩
  · intro list
    exact ⟨Survey.kept_pairwise _ _, fun i => Config.wanted_of_kept⟩
  · intro d hd
    rcases Config.mem_diagnostics.mp hd with hd | hd | ⟨list, hd⟩
    · left
      rcases Config.location_of_source hd with h | h <;> rw [h] <;> simp [Location.path]
    · left
      rw [Config.location_of_limit hd]
      simp [Location.path]
    · right
      obtain ⟨i, part, he, hlocation⟩ := Config.enabled_of_reported hd
      exact ⟨list, i, part, he, by rw [hlocation]; rfl⟩

end EndpointPreview
