import EndpointPreview.Proofs.IncompleteEntries
import EndpointPreview.Proofs.LocalEdits
/-!
Rows that are not filled in, at the end of their list. The check of such a row is silent whatever the
rows before it have yielded, so a survey that comes to it last is the survey of the other rows, and a
row that has just been added does not show.
-/

namespace EndpointPreview

namespace Survey

variable {α σ : Type} {list : EntryList}

theorem startingAt_append_skip {check : List α → σ → Check α} {row : σ}
    (h : ∀ before, check before row = .skip) (before : List α) (start : Nat) (entries : List σ) :
    startingAt list check before start (entries ++ [row]) =
      startingAt list check before start entries := by
  induction entries generalizing before start with
  | nil => simp [startingAt, h]
  | cons entry entries ih => rw [List.cons_append, startingAt, startingAt, ih]

theorem each_append_skip {check : σ → Check α} {row : σ} (h : check row = .skip)
    (entries : List σ) : each list check (entries ++ [row]) = each list check entries :=
  startingAt_append_skip (fun _ => h) [] 0 entries

end Survey

def EntryList.IsUnfinished : (list : EntryList) → list.Entry → Prop
  | .fields, (f : Config.Field) => f.isComplete = false ∧ f.NameIsSafe
  | .joins, (j : Config.Join) => j.isComplete = false
  | .filters, (f : Config.Filter) => f.isComplete = false
  | .sorting, (s : Config.SortKey) => s.isComplete = false
  | .params, (p : Config.Param) => p.isComplete = false

theorem EntryList.newEntry_isUnfinished (list : EntryList) : list.IsUnfinished list.newEntry := by
  cases list with
  | fields =>
    refine ⟨by decide, ?_⟩
    intro name hname
    cases hname
  | joins => exact (by decide : ({} : Config.Join).isComplete = false)
  | filters => exact (by decide : ({} : Config.Filter).isComplete = false)
  | sorting => exact (by decide : ({} : Config.SortKey).isComplete = false)
  | params => exact (by decide : ({} : Config.Param).isComplete = false)

namespace Config

def append (c : Config) : (list : EntryList) → list.Entry → Config
  | .fields, (f : Field) => { c with fields := c.fields ++ [f] }
  | .joins, (j : Join) => { c with joins := c.joins ++ [j] }
  | .filters, (f : Filter) => { c with filters := c.filters ++ [f] }
  | .sorting, (s : SortKey) => { c with sorting := c.sorting ++ [s] }
  | .params, (p : Param) => { c with params := c.params ++ [p] }

theorem apply_add (c : Config) (list : EntryList) :
    c.apply (.ofList list .add) = c.append list list.newEntry := by
  cases list <;> rfl

section

variable {list : EntryList} {row : list.Entry} (h : list.IsUnfinished row) (c : Config)

include h

theorem selection_append : (c.append list row).selection = c.selection := by
  cases list with
  | fields => exact Survey.startingAt_append_skip (Field.check_incomplete h.1 h.2) [] 0 c.fields
  | _ => rfl

theorem joinSurvey_append (source : Option TableRef) :
    (c.append list row).joinSurvey source = c.joinSurvey source := by
  cases list with
  | joins => exact Survey.each_append_skip (Join.check_incomplete h source) c.joins
  | _ => rfl

theorem paramSurvey_append : (c.append list row).paramSurvey = c.paramSurvey := by
  cases list with
  | params => exact Survey.each_append_skip (Param.check_incomplete h) c.params
  | _ => rfl

theorem filterSurvey_append : (c.append list row).filterSurvey = c.filterSurvey := by
  cases list with
  | filters => exact Survey.each_append_skip (Filter.check_incomplete h c.declaredParams) c.filters
  | params =>
    -- The new parameter has no name yet, so no filter can refer to it.
    have hcheck : Filter.check (c.append .params row).declaredParams =
        Filter.check c.declaredParams := by
      apply Filter.check_congr
      intro name hname
      rw [mem_declaredParams hname, mem_declaredParams hname, paramSurvey_append h]
    rw [filterSurvey, hcheck, filterSurvey]
    rfl
  | _ => rfl

theorem orderSurvey_append : (c.append list row).orderSurvey = c.orderSurvey := by
  cases list with
  | sorting => exact Survey.each_append_skip (SortKey.check_incomplete h) c.sorting
  | _ => rfl

theorem resolve_append : (c.append list row).resolve = c.resolve := by
  have hframe : (c.append list row).frame = c.frame := by cases list <;> rfl
  have hpath : (c.append list row).path = c.path := by cases list <;> rfl
  have hsource : (c.append list row).checkSource = c.checkSource := by
    cases list <;> exact checkSource_congr rfl rfl
  apply resolve_congr hframe (congrArg Text.trim hpath) hsource
  · exact selection_append h c
  · exact joinSurvey_append h c
  · exact filterSurvey_append h c
  · exact orderSurvey_append h c
  · exact paramSurvey_append h c

end

end Config

/-- A new row does not show, in whichever list it is. -/
theorem preview_add (c : Config) (host : String) (list : EntryList) :
    (c.apply (.ofList list .add)).preview host = c.preview host := by
  have hresolve := Config.resolve_append list.newEntry_isUnfinished c
  rw [c.apply_add, Config.preview, hresolve, Config.preview]

end EndpointPreview
