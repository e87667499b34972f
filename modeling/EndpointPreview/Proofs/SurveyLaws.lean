import Mathlib.Data.List.Forall2
import EndpointPreview.Proofs.EntryChecks
/-!
A survey seen as one check for each entry. The results of the checks that have one are the nodes,
and their flaws are the diagnostics, with the index of the entry.
-/

namespace EndpointPreview

namespace Survey

variable {α σ : Type}

def checks (check : List α → σ → Check α) (before : List α) : List σ → List (Check α)
  | [] => []
  | entry :: entries =>
    let checked := check before entry
    checked :: checks check (before ++ checked.result.toList) entries

def reports (list : EntryList) (start : Nat) (checks : List (Check α)) : List Diagnostic :=
  (checks.zipIdx start).flatMap fun (checked, i) => checked.flaws.map (Flaw.at list i)

def yields (checks : List (Check α)) : List Bool :=
  checks.map (·.result.isSome)

def kept (start : Nat) (yields : List Bool) : List Nat :=
  ((yields.zipIdx start).filter Prod.fst).map Prod.snd

theorem reports_cons (list : EntryList) (start : Nat) (checked : Check α)
    (checks : List (Check α)) :
    reports list start (checked :: checks) =
      checked.flaws.map (Flaw.at list start) ++ reports list (start + 1) checks := by
  simp [reports]

theorem startingAt_eq (list : EntryList) (check : List α → σ → Check α) (before : List α)
    (start : Nat) (entries : List σ) :
    startingAt list check before start entries =
      ⟨(checks check before entries).filterMap Check.result,
        reports list start (checks check before entries)⟩ := by
  induction entries generalizing before start with
  | nil => rfl
  | cons entry entries ih =>
    simp only [startingAt, checks, ih, reports_cons, List.filterMap_cons]
    cases (check before entry).result <;> rfl

theorem of_eq (list : EntryList) (check : List α → σ → Check α) (entries : List σ) :
    of list check entries =
      ⟨(checks check [] entries).filterMap Check.result,
        reports list 0 (checks check [] entries)⟩ :=
  startingAt_eq list check [] 0 entries

theorem checks_const (check : σ → Check α) (before : List α) (entries : List σ) :
    checks (fun _ => check) before entries = entries.map check := by
  induction entries generalizing before with
  | nil => rfl
  | cons entry entries ih => rw [checks, ih, List.map_cons]

theorem each_eq (list : EntryList) (check : σ → Check α) (entries : List σ) :
    each list check entries =
      ⟨(entries.map check).filterMap Check.result, reports list 0 (entries.map check)⟩ := by
  rw [each, of_eq, checks_const]

theorem mem_each_results {list : EntryList} {check : σ → Check α} {entries : List σ} {a : α} :
    a ∈ (each list check entries).results ↔ ∃ entry ∈ entries, (check entry).result = some a := by
  simp [each_eq]

theorem forall₂_checks (check : List α → σ → Check α) (before : List α) (entries : List σ) :
    List.Forall₂ (fun entry checked => ∃ seen, checked = check seen entry) entries
      (checks check before entries) := by
  induction entries generalizing before with
  | nil => exact .nil
  | cons entry entries ih => exact .cons ⟨before, rfl⟩ (ih _)

theorem exists_of_mem_checks {check : List α → σ → Check α} {before : List α} {entries : List σ}
    {checked : Check α} (h : checked ∈ checks check before entries) :
    ∃ seen, ∃ entry ∈ entries, checked = check seen entry := by
  induction entries generalizing before with
  | nil => cases h
  | cons entry entries ih =>
    rcases List.mem_cons.mp h with rfl | h
    · exact ⟨before, entry, List.mem_cons_self, rfl⟩
    · obtain ⟨seen, other, hother, he⟩ := ih h
      exact ⟨seen, other, List.mem_cons_of_mem _ hother, he⟩

theorem exists_of_mem_results {list : EntryList} {check : List α → σ → Check α}
    {entries : List σ} {a : α} (h : a ∈ (of list check entries).results) :
    ∃ seen, ∃ entry ∈ entries, (check seen entry).result = some a := by
  rw [of_eq] at h
  obtain ⟨checked, hchecked, ha⟩ := List.mem_filterMap.mp h
  obtain ⟨seen, entry, hentry, rfl⟩ := exists_of_mem_checks hchecked
  exact ⟨seen, entry, hentry, ha⟩

theorem forall₂_kept (start : Nat) (checks : List (Check α)) :
    List.Forall₂ (fun i a => ∃ checked, (checked, i) ∈ checks.zipIdx start ∧
      checked.result = some a) (kept start (yields checks)) (checks.filterMap Check.result) := by
  induction checks generalizing start with
  | nil => exact .nil
  | cons checked checks ih =>
    have hrest := (ih (start + 1)).imp fun i a ⟨c, hc, ha⟩ =>
      (⟨c, List.mem_cons_of_mem (checked, start) hc, ha⟩ :
        ∃ c, (c, i) ∈ (checked :: checks).zipIdx start ∧ c.result = some a)
    simp only [kept, yields, List.map_cons, List.zipIdx_cons, List.filterMap_cons,
      List.filter_cons] at hrest ⊢
    cases hresult : checked.result with
    | none => simpa only [Option.isSome_none, Bool.false_eq_true, ↓reduceIte] using hrest
    | some a =>
      simp only [Option.isSome_some, ↓reduceIte, List.map_cons]
      exact .cons ⟨checked, List.mem_cons_self, hresult⟩ hrest

theorem kept_pairwise (start : Nat) (yields : List Bool) :
    (kept start yields).Pairwise (· < ·) := by
  have hsub : (kept start yields).Sublist ((yields.zipIdx start).map Prod.snd) :=
    (List.filter_sublist).map _
  rw [List.zipIdx_map_snd] at hsub
  exact List.Pairwise.sublist hsub List.pairwise_lt_range'

theorem mem_kept {yields : List Bool} {i : Nat} : i ∈ kept 0 yields ↔ yields[i]? = some true := by
  simp [kept, List.mem_zipIdx_iff_getElem?]

theorem yields_getElem? {checks : List (Check α)} {i : Nat} {b : Bool} :
    (yields checks)[i]? = some b ↔ ∃ checked, checks[i]? = some checked ∧
      checked.result.isSome = b := by
  rw [yields, List.getElem?_map, Option.map_eq_some_iff]

theorem mem_reports {list : EntryList} {checks : List (Check α)} {d : Diagnostic} :
    d ∈ reports list 0 checks ↔
      ∃ i, ∃ checked : Check α, checks[i]? = some checked ∧
        ∃ flaw ∈ checked.flaws, flaw.at list i = d := by
  simp only [reports, List.mem_flatMap, Prod.exists, List.mem_zipIdx_iff_getElem?, List.mem_map]
  exact exists_comm

end Survey

namespace Config

def yields (c : Config) : EntryList → List Bool
  | .fields => Survey.yields (Survey.checks Field.check [] c.fields)
  | .joins => Survey.yields (c.joins.map (Join.check c.checkSource.1))
  | .filters => Survey.yields (c.filters.map (Filter.check c.declaredParams))
  | .sorting => Survey.yields (c.sorting.map SortKey.check)
  | .params => Survey.yields (c.params.map Param.check)

def kept (c : Config) (list : EntryList) : List Nat :=
  Survey.kept 0 (c.yields list)

theorem resolve_endpoint (c : Config) :
    c.resolve.endpoint = {
      method := c.method
      path := Text.trim c.path
      query := {
        distinct := c.distinct
        projection := c.selection.results
        source := c.checkSource.1
        joins := (c.joinSurvey c.checkSource.1).results
        filter := .ofClauses c.filterSurvey.results
        groupBy := grouping c.selection.results
        orderBy := c.orderSurvey.results
        limit := c.limit }
      params := c.paramSurvey.results
      pagination := c.pagination
      allowCustomSorting := c.allowCustomSorting
      allowFieldSelection := c.allowFieldSelection } := rfl

theorem resolve_diagnostics (c : Config) :
    c.resolve.diagnostics = c.checkSource.2 ++ c.selection.diagnostics ++
      (c.joinSurvey c.checkSource.1).diagnostics ++ c.filterSurvey.diagnostics ++
      c.orderSurvey.diagnostics ++ c.limitDiagnostics ++ c.paramSurvey.diagnostics := rfl

def reports (c : Config) : EntryList → List Diagnostic
  | .fields => Survey.reports .fields 0 (Survey.checks Field.check [] c.fields)
  | .joins => Survey.reports .joins 0 (c.joins.map (Join.check c.checkSource.1))
  | .filters => Survey.reports .filters 0 (c.filters.map (Filter.check c.declaredParams))
  | .sorting => Survey.reports .sorting 0 (c.sorting.map SortKey.check)
  | .params => Survey.reports .params 0 (c.params.map Param.check)

theorem mem_diagnostics {c : Config} {d : Diagnostic} :
    d ∈ c.resolve.diagnostics ↔
      d ∈ c.checkSource.2 ∨ d ∈ c.limitDiagnostics ∨ ∃ list, d ∈ c.reports list := by
  rw [resolve_diagnostics, selection, Survey.of_eq, joinSurvey, Survey.each_eq, filterSurvey,
    Survey.each_eq, orderSurvey, Survey.each_eq, paramSurvey, Survey.each_eq]
  simp only [List.mem_append]
  constructor
  · rintro ((((((h | h) | h) | h) | h) | h) | h)
    · exact .inl h
    · exact .inr (.inr ⟨.fields, h⟩)
    · exact .inr (.inr ⟨.joins, h⟩)
    · exact .inr (.inr ⟨.filters, h⟩)
    · exact .inr (.inr ⟨.sorting, h⟩)
    · exact .inr (.inl h)
    · exact .inr (.inr ⟨.params, h⟩)
  · rintro (h | h | ⟨list, h⟩)
    · simp only [h, true_or]
    · simp only [h, true_or, or_true]
    · cases list <;> simp only [reports] at h <;> simp only [h, true_or, or_true]

theorem location_of_source {c : Config} {d : Diagnostic} (h : d ∈ c.checkSource.2) :
    d.location = .primaryTable ∨ d.location = .primaryName := by
  unfold checkSource at h
  split at h
  · cases h
  · split at h
    · cases List.mem_singleton.mp h
      exact .inl rfl
    · split at h
      · cases h
      · split at h
        · cases h
        · cases List.mem_singleton.mp h
          exact .inr rfl

theorem location_of_limit {c : Config} {d : Diagnostic} (h : d ∈ c.limitDiagnostics) :
    d.location = .defaultLimit := by
  unfold limitDiagnostics at h
  dsimp only at h
  split at h
  · cases List.mem_singleton.mp h
    rfl
  · cases h

end Config

end EndpointPreview
