import Mathlib.Data.Nat.Count
import EndpointPreview.Proofs.Alike
/-!
Entries that leave no node in the query can be deleted. What remains yields the same nodes, so that
only the flaws of the deleted entries disappear from the preview.
-/

namespace EndpointPreview

abbrev Deletion : Type := EntryList → List Nat

namespace Deletion

variable {α σ : Type}

def without (gone : List Nat) (start : Nat) (entries : List α) : List α :=
  ((entries.zipIdx start).filter fun (_, i) => i ∉ gone).map Prod.fst

/-- Where an entry stands that stood at an index: behind the entries before it that remain. -/
def newIndex (gone : List Nat) (i : Nat) : Nat :=
  Nat.count (· ∉ gone) i

end Deletion

def Location.without (gone : Deletion) : Location → Option Location
  | .entry list i part =>
    if i ∈ gone list then none else some (.entry list (Deletion.newIndex (gone list) i) part)
  | other => some other

def Diagnostic.without (gone : Deletion) (d : Diagnostic) : Option Diagnostic :=
  (d.location.without gone).map fun location => ⟨location, d.problem⟩

def Survey.without {α : Type} (s : Survey α) (gone : Deletion) : Survey α :=
  ⟨s.results, s.diagnostics.filterMap (Diagnostic.without gone)⟩

def Config.without (c : Config) (gone : Deletion) : Config :=
  { c with
    fields := Deletion.without (gone .fields) 0 c.fields
    joins := Deletion.without (gone .joins) 0 c.joins
    filters := Deletion.without (gone .filters) 0 c.filters
    sorting := Deletion.without (gone .sorting) 0 c.sorting
    params := Deletion.without (gone .params) 0 c.params }

def Config.IsAbsent (c : Config) (list : EntryList) (i : Nat) : Prop :=
  (c.yields list)[i]? = some false

instance (c : Config) (list : EntryList) (i : Nat) : Decidable (c.IsAbsent list i) :=
  inferInstanceAs (Decidable ((c.yields list)[i]? = some false))

namespace Deletion

variable {α σ : Type}

theorem without_cons (gone : List Nat) (start : Nat) (entry : α) (entries : List α) :
    without gone start (entry :: entries) =
      if start ∈ gone then without gone (start + 1) entries
      else entry :: without gone (start + 1) entries := by
  by_cases h : start ∈ gone <;> simp [without, h]

theorem newIndex_succ (gone : List Nat) (i : Nat) :
    newIndex gone (i + 1) = newIndex gone i + if i ∈ gone then 0 else 1 := by
  rw [newIndex, Nat.count_succ, ← newIndex]
  by_cases h : i ∈ gone <;> simp [h]

theorem filterMap_flaws (gone : Deletion) (list : EntryList) (i : Nat) (flaws : List Flaw) :
    (flaws.map (Flaw.at list i)).filterMap (Diagnostic.without gone) =
      if i ∈ gone list then [] else flaws.map (Flaw.at list (newIndex (gone list) i)) := by
  by_cases h : i ∈ gone list
  · rw [if_pos h, List.filterMap_eq_nil_iff]
    intro d hd
    obtain ⟨flaw, -, rfl⟩ := List.mem_map.mp hd
    simp [Flaw.at, Diagnostic.without, Location.without, h]
  · rw [if_neg h, List.filterMap_map, ← List.filterMap_eq_map]
    congr 1
    funext flaw
    simp [Flaw.at, Diagnostic.without, Location.without, h]

theorem reports_without (gone : Deletion) (list : EntryList) (start : Nat)
    (checks : List (Check α)) :
    Survey.reports list (newIndex (gone list) start) (without (gone list) start checks) =
      (Survey.reports list start checks).filterMap (Diagnostic.without gone) := by
  induction checks generalizing start with
  | nil => rfl
  | cons checked checks ih =>
    rw [Survey.reports_cons, List.filterMap_append, filterMap_flaws, ← ih, without_cons, newIndex_succ]
    by_cases h : start ∈ gone list
    · simp only [if_pos h, Nat.add_zero, List.nil_append]
    · simp only [if_neg h, Survey.reports_cons]

theorem results_without (gone : List Nat) (start : Nat) (checks : List (Check α))
    (h : ∀ i, i + start ∈ gone → ∀ checked, checks[i]? = some checked → checked.result = none) :
    (without gone start checks).filterMap Check.result = checks.filterMap Check.result := by
  induction checks generalizing start with
  | nil => rfl
  | cons checked checks ih =>
    have hrest := ih (start + 1) fun i hi c hc => h (i + 1) (by rwa [Nat.add_right_comm]) c hc
    rw [without_cons]
    by_cases hgone : start ∈ gone
    · have hnone := h 0 (by rwa [Nat.zero_add]) checked rfl
      rw [if_pos hgone, hrest, List.filterMap_cons, hnone]
    · rw [if_neg hgone, List.filterMap_cons, List.filterMap_cons, hrest]

theorem checks_without (check : List α → σ → Check α) (gone : List Nat) (before : List α)
    (start : Nat) (entries : List σ)
    (h : ∀ i, i + start ∈ gone → ∀ checked, (Survey.checks check before entries)[i]? = some checked →
      checked.result = none) :
    Survey.checks check before (without gone start entries) =
      without gone start (Survey.checks check before entries) := by
  induction entries generalizing before start with
  | nil => rfl
  | cons entry entries ih =>
    have hrest := ih (before ++ (check before entry).result.toList) (start + 1)
      fun i hi c hc => h (i + 1) (by rwa [Nat.add_right_comm]) c hc
    rw [Survey.checks, without_cons, without_cons]
    by_cases hgone : start ∈ gone
    · -- The checks behind a deleted entry are made after the same results.
      have hnone : (check before entry).result = none := h 0 (by rwa [Nat.zero_add]) _ rfl
      rw [hnone, Option.toList_none, List.append_nil] at hrest
      rw [if_pos hgone, if_pos hgone, hrest, hnone, Option.toList_none, List.append_nil]
    · rw [if_neg hgone, if_neg hgone, Survey.checks, hrest]

theorem survey_without (gone : Deletion) (list : EntryList) (check : List α → σ → Check α)
    (entries : List σ)
    (h : ∀ i ∈ gone list, (Survey.yields (Survey.checks check [] entries))[i]? = some false) :
    Survey.of list check (without (gone list) 0 entries) =
      (Survey.of list check entries).without gone := by
  have habsent : ∀ i, i + 0 ∈ gone list → ∀ checked : Check α,
      (Survey.checks check [] entries)[i]? = some checked → checked.result = none := by
    intro i hi checked hc
    obtain ⟨found, hfound, hnone⟩ := Survey.yields_getElem?.mp (h i hi)
    cases hc.symm.trans hfound
    simpa using hnone
  have hzero : newIndex (gone list) 0 = 0 := Nat.count_zero _
  rw [Survey.of_eq, Survey.of_eq, Survey.without, checks_without check _ _ _ _ habsent,
    results_without _ _ _ habsent, ← reports_without, hzero]

theorem each_without (gone : Deletion) (list : EntryList) (check : σ → Check α)
    (entries : List σ)
    (h : ∀ i ∈ gone list, (Survey.yields (entries.map check))[i]? = some false) :
    Survey.each list check (without (gone list) 0 entries) =
      (Survey.each list check entries).without gone := by
  apply survey_without
  rwa [Survey.checks_const]

end Deletion

namespace Config

theorem paramSurvey_without {c : Config} {gone : Deletion}
    (h : ∀ i ∈ gone .params, c.IsAbsent .params i) :
    (c.without gone).paramSurvey = c.paramSurvey.without gone :=
  Deletion.each_without gone _ _ _ h

theorem mem_declaredParams_without {c : Config} {gone : Deletion}
    (h : ∀ i ∈ gone .params, c.IsAbsent .params i) {name : String}
    (hname : isIdentifier name = true) :
    name ∈ (c.without gone).declaredParams ↔ name ∈ c.declaredParams := by
  rw [mem_declaredParams hname, mem_declaredParams hname, paramSurvey_without h]
  rfl

theorem checkSource_without (c : Config) (gone : Deletion) :
    (c.without gone).checkSource = c.checkSource := by
  simp only [checkSource, without]

section

variable {c : Config} {gone : Deletion} (h : ∀ list, ∀ i ∈ gone list, c.IsAbsent list i)

include h

theorem selection_without : (c.without gone).selection = c.selection.without gone :=
  Deletion.survey_without gone _ _ _ (h .fields)

theorem joinSurvey_without :
    (c.without gone).joinSurvey c.checkSource.1 = (c.joinSurvey c.checkSource.1).without gone :=
  Deletion.each_without gone _ _ _ (h .joins)

theorem filterSurvey_without : (c.without gone).filterSurvey = c.filterSurvey.without gone := by
  rw [filterSurvey, Filter.check_congr fun _ => mem_declaredParams_without (h .params)]
  exact Deletion.each_without gone _ _ _ (h .filters)

theorem orderSurvey_without : (c.without gone).orderSurvey = c.orderSurvey.without gone :=
  Deletion.each_without gone _ _ _ (h .sorting)

theorem endpoint_without : (c.without gone).resolve.endpoint = c.resolve.endpoint := by
  rw [resolve_endpoint, resolve_endpoint, checkSource_without, selection_without h, joinSurvey_without h,
    filterSurvey_without h, orderSurvey_without h, paramSurvey_without (h .params)]
  rfl

end

theorem filterMap_without {diagnostics : List Diagnostic} (gone : Deletion)
    (h : ∀ d ∈ diagnostics, d.location.without gone = some d.location) :
    diagnostics.filterMap (Diagnostic.without gone) = diagnostics := by
  have hid : ∀ d ∈ diagnostics, d.without gone = some d := by
    intro d hd
    rw [Diagnostic.without, h d hd]
    rfl
  rw [List.filterMap_congr hid]
  exact List.filterMap_some

theorem sourceDiagnostics_without (c : Config) (gone : Deletion) :
    c.checkSource.2.filterMap (Diagnostic.without gone) = c.checkSource.2 := by
  apply filterMap_without
  intro d hd
  rcases location_of_source hd with h | h <;> rw [h] <;> rfl

theorem limitDiagnostics_without (c : Config) (gone : Deletion) :
    c.limitDiagnostics.filterMap (Diagnostic.without gone) = c.limitDiagnostics := by
  apply filterMap_without
  intro d hd
  rw [location_of_limit hd]
  rfl

theorem diagnostics_without {c : Config} {gone : Deletion}
    (h : ∀ list, ∀ i ∈ gone list, c.IsAbsent list i) :
    (c.without gone).resolve.diagnostics =
      c.resolve.diagnostics.filterMap (Diagnostic.without gone) := by
  have hlimit : (c.without gone).limitDiagnostics = c.limitDiagnostics := rfl
  rw [resolve_diagnostics, resolve_diagnostics, checkSource_without, hlimit, selection_without h,
    joinSurvey_without h, filterSurvey_without h, orderSurvey_without h, paramSurvey_without (h .params)]
  simp only [List.filterMap_append, sourceDiagnostics_without, limitDiagnostics_without,
    Survey.without]

end Config

/-- Absent entries can go: what is shown stays, and what is said about the others as well. -/
theorem preview_without_absent (c : Config) (host : String) (gone : Deletion)
    (h : ∀ list, ∀ i ∈ gone list, c.IsAbsent list i) :
    ((c.without gone).preview host).query = (c.preview host).query ∧
      ((c.without gone).preview host).url = (c.preview host).url ∧
      ((c.without gone).preview host).response = (c.preview host).response ∧
      ((c.without gone).preview host).diagnostics =
        (c.preview host).diagnostics.filterMap (Diagnostic.without gone) := by
  have hendpoint := Config.endpoint_without h
  have hdiagnostics := Config.diagnostics_without h
  simp only [Config.preview]
  rw [hendpoint]
  exact ⟨rfl, rfl, rfl, hdiagnostics⟩

def clutteredConfig : Config where
  primaryTable := "users"
  fields := [{ column := "id" }, { column := "u.id" }, { column := "name; --" }]
  joins := [{ table := "orders o", leftColumn := "id", rightColumn := "user_id" }]
  filters := [
    { column := "a", operator := some .eq, value := "1", group := some "g" },
    { column := "b", group := some "g" },
    { column := "c", operator := some .eq, group := some "g" }]
  sorting := [{ column := "1=1" }]
  params := [{ name := "1abc" }, { name := "page" }]

def clutter : Deletion
  | .fields => [1]
  | .joins => [0]
  | .filters => [1]
  | .sorting => [0]
  | .params => [0]

theorem preview_without_clutter :
    (∀ list, ∀ i ∈ clutter list, clutteredConfig.IsAbsent list i) ∧
      ((clutteredConfig.without clutter).preview defaultHost).query =
        (clutteredConfig.preview defaultHost).query ∧
      ((clutteredConfig.without clutter).preview defaultHost).diagnostics =
        [⟨.entry .fields 1 .column, .badName "name; --"⟩, ⟨.entry .filters 1 .value, .noValue⟩] := by
  have habsent : ∀ list, ∀ i ∈ clutter list, clutteredConfig.IsAbsent list i := by
    intro list
    cases list <;> decide
  have h := preview_without_absent clutteredConfig defaultHost clutter habsent
  refine ⟨habsent, h.1, ?_⟩
  rw [h.2.2.2]
  decide

end EndpointPreview
