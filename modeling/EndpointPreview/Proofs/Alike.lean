import EndpointPreview.Preview
import EndpointPreview.Proofs.SurveyLaws
/-!
Configurations that are checked alike. An entry matters only through what its check yields, and the
declared parameters only through the safe names among them, so configurations whose entries have
the same checks have the same preview.
-/

namespace EndpointPreview

namespace Survey

variable {α σ : Type} {list : EntryList}

theorem startingAt_congr {check : List α → σ → Check α} {entries others : List σ}
    (h : List.Forall₂ (fun entry other => ∀ before, check before other = check before entry)
      entries others) (before : List α) (start : Nat) :
    startingAt list check before start others = startingAt list check before start entries := by
  induction h generalizing before start with
  | nil => rfl
  | cons hentry _ ih => rw [startingAt, startingAt, hentry, ih]

theorem each_congr {check : σ → Check α} {entries others : List σ}
    (h : List.Forall₂ (fun entry other => check other = check entry) entries others) :
    each list check others = each list check entries :=
  startingAt_congr (h.imp fun _ _ hentry _ => hentry) [] 0

end Survey

namespace Config

theorem Filter.check_congr {declared others : List String}
    (h : ∀ name, isIdentifier name = true → (name ∈ declared ↔ name ∈ others)) :
    Filter.check declared = Filter.check others := by
  -- A value asks only whether one name is declared, and a reference has a safe name.
  have hvalue : checkValue declared = checkValue others := by
    funext source part text
    unfold checkValue
    split
    · rfl
    · split
      · rfl
      · split
        · rfl
        · next name hname => simp only [h name (parameter?_isIdentifier hname)]
      · rfl
  funext f
  simp only [Filter.check, Filter.checkComparison, Filter.checkOperand, Filter.checkRange,
    Filter.checkList, hvalue]

/-- The declared names are those of the configuration as it stands; the safe ones among them are
those that the survey of parameters keeps. -/
theorem mem_declaredParams {c : Config} {name : String} (hname : isIdentifier name = true) :
    name ∈ c.declaredParams ↔ ∃ p ∈ c.paramSurvey.results, p.name = name := by
  constructor
  · intro h
    obtain ⟨p, hp, rfl⟩ := List.mem_map.mp h
    obtain ⟨hmem, he⟩ := List.mem_filter.mp hp
    have hblank : Text.blank p.name = false := blank_eq_false_of_isName hname
    have hident : Ident.ofText? p.name = some ⟨Text.trim p.name, hname⟩ :=
      Ident.ofText?_eq_some.mpr rfl
    have hcheck : p.check.result = some { p with name := Text.trim p.name } := by
      unfold Param.check
      rw [if_pos (by simp [he, hblank]), Check.map_result, checkIdent_result, hident]
      rfl
    exact ⟨_, Survey.mem_each_results.mpr ⟨p, hmem, hcheck⟩, rfl⟩
  · rintro ⟨q, hq, rfl⟩
    obtain ⟨p, hp, hcheck⟩ := Survey.mem_each_results.mp hq
    have hdescribes : q = { p with name := Text.trim p.name } := Param.describes_of_check hcheck
    have he := (Param.wanted_of_check hcheck).1
    rw [hdescribes]
    exact List.mem_map.mpr ⟨p, List.mem_filter.mpr ⟨hp, he⟩, rfl⟩

theorem checkSource_congr {c d : Config} (htable : d.primaryTable = c.primaryTable)
    (hname : d.primaryName = c.primaryName) : d.checkSource = c.checkSource := by
  simp only [checkSource, htable, hname]

def frame (c : Config) : Config :=
  { c with
    path := "", primaryTable := "", primaryName := none, joins := [], fields := [], filters := [],
    sorting := [], params := [] }

theorem resolve_congr {c d : Config} (hframe : d.frame = c.frame)
    (hpath : Text.trim d.path = Text.trim c.path) (hsource : d.checkSource = c.checkSource)
    (hselection : d.selection = c.selection)
    (hjoins : ∀ source, d.joinSurvey source = c.joinSurvey source)
    (hfilters : d.filterSurvey = c.filterSurvey) (horder : d.orderSurvey = c.orderSurvey)
    (hparams : d.paramSurvey = c.paramSurvey) : d.resolve = c.resolve := by
  have hmethod : d.method = c.method := (congrArg Config.method hframe :)
  have hdistinct : d.distinct = c.distinct := (congrArg Config.distinct hframe :)
  have hpagination : d.pagination = c.pagination := (congrArg Config.pagination hframe :)
  have hcustom : d.allowCustomSorting = c.allowCustomSorting :=
    (congrArg Config.allowCustomSorting hframe :)
  have hchoice : d.allowFieldSelection = c.allowFieldSelection :=
    (congrArg Config.allowFieldSelection hframe :)
  have hlimit : d.limit = c.limit := (congrArg Config.limit hframe :)
  have hreport : d.limitDiagnostics = c.limitDiagnostics :=
    (congrArg Config.limitDiagnostics hframe :)
  simp only [resolve, hmethod, hpath, hdistinct, hsource, hselection, hjoins, hfilters, horder,
    hparams, hlimit, hreport, hpagination, hcustom, hchoice]

structure Alike (c d : Config) : Prop where
  frame : d.frame = c.frame
  path : Text.trim d.path = Text.trim c.path
  source : d.checkSource = c.checkSource
  fields : List.Forall₂ (fun f g => ∀ before, g.check before = f.check before) c.fields d.fields
  joins : List.Forall₂ (fun j k => ∀ source, k.check source = j.check source) c.joins d.joins
  filters : List.Forall₂ (fun f g => ∀ declared, g.check declared = f.check declared)
    c.filters d.filters
  sorting : List.Forall₂ (fun s t => t.check = s.check) c.sorting d.sorting
  params : List.Forall₂ (fun p q => q.check = p.check) c.params d.params

namespace Alike

theorem refl (c : Config) : c.Alike c where
  frame := rfl
  path := rfl
  source := rfl
  fields := List.forall₂_same.mpr fun _ _ _ => rfl
  joins := List.forall₂_same.mpr fun _ _ _ => rfl
  filters := List.forall₂_same.mpr fun _ _ _ => rfl
  sorting := List.forall₂_same.mpr fun _ _ => rfl
  params := List.forall₂_same.mpr fun _ _ => rfl

section

variable {c : Config}

theorem withFields {fields : List Field}
    (h : List.Forall₂ (fun f g => ∀ before, g.check before = f.check before) c.fields fields) :
    c.Alike { c with fields } :=
  { Alike.refl c with source := checkSource_congr rfl rfl, fields := h }

theorem withJoins {joins : List Join}
    (h : List.Forall₂ (fun j k => ∀ source, k.check source = j.check source) c.joins joins) :
    c.Alike { c with joins } :=
  { Alike.refl c with source := checkSource_congr rfl rfl, joins := h }

theorem withFilters {filters : List Filter}
    (h : List.Forall₂ (fun f g => ∀ declared, g.check declared = f.check declared)
      c.filters filters) :
    c.Alike { c with filters } :=
  { Alike.refl c with source := checkSource_congr rfl rfl, filters := h }

theorem withSorting {sorting : List SortKey}
    (h : List.Forall₂ (fun s t => t.check = s.check) c.sorting sorting) :
    c.Alike { c with sorting } :=
  { Alike.refl c with source := checkSource_congr rfl rfl, sorting := h }

theorem withParams {params : List Param}
    (h : List.Forall₂ (fun p q => q.check = p.check) c.params params) :
    c.Alike { c with params } :=
  { Alike.refl c with source := checkSource_congr rfl rfl, params := h }

end

variable {c d : Config} (h : c.Alike d)

include h

theorem selection : d.selection = c.selection :=
  Survey.startingAt_congr h.fields [] 0

theorem joinSurvey (source : Option TableRef) : d.joinSurvey source = c.joinSurvey source :=
  Survey.each_congr (h.joins.imp fun _ _ hentry => hentry source)

theorem paramSurvey : d.paramSurvey = c.paramSurvey :=
  Survey.each_congr h.params

theorem filterSurvey : d.filterSurvey = c.filterSurvey := by
  have hcheck : Filter.check d.declaredParams = Filter.check c.declaredParams := by
    apply Filter.check_congr
    intro name hname
    rw [mem_declaredParams hname, mem_declaredParams hname, h.paramSurvey]
  rw [Config.filterSurvey, hcheck]
  exact Survey.each_congr (h.filters.imp fun _ _ hentry => hentry _)

theorem orderSurvey : d.orderSurvey = c.orderSurvey :=
  Survey.each_congr h.sorting

theorem resolve : d.resolve = c.resolve :=
  resolve_congr h.frame h.path h.source h.selection h.joinSurvey h.filterSurvey h.orderSurvey
    h.paramSurvey

theorem preview (host : String) : d.preview host = c.preview host := by
  rw [Config.preview, h.resolve, Config.preview]

end Alike

end Config

end EndpointPreview
