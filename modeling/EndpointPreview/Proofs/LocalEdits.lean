import Mathlib.Data.List.Basic
import EndpointPreview.Config.Edit
import EndpointPreview.Diagnostic
/-!
Edits as changes of one setting. An edit makes the new value of its setting out of the old one and
leaves every other setting alone, so edits of different settings do not see each other; what edits
of one list do to each other is a matter of that list.
-/

namespace EndpointPreview

def EntryList.Entry : EntryList → Type
  | .fields => Config.Field
  | .joins => Config.Join
  | .filters => Config.Filter
  | .sorting => Config.SortKey
  | .params => Config.Param

def EntryList.newEntry : (list : EntryList) → list.Entry
  | .fields => ({} : Config.Field)
  | .joins => ({} : Config.Join)
  | .filters => ({} : Config.Filter)
  | .sorting => ({} : Config.SortKey)
  | .params => ({} : Config.Param)

inductive Setting
  | name | description | method | path | primaryTable | primaryName | pagination
  | customSorting | fieldSelection | distinct | hardLimit
  | entries (list : EntryList)
deriving DecidableEq

def Setting.Value : Setting → Type
  | .name | .description | .primaryName => Option String
  | .method => Method
  | .path | .primaryTable => String
  | .pagination => Config.Pagination
  | .customSorting | .fieldSelection | .distinct => Bool
  | .hardLimit => Option UInt32
  | .entries list => List list.Entry

namespace Config

def entries (c : Config) : (list : EntryList) → List list.Entry
  | .fields => c.fields
  | .joins => c.joins
  | .filters => c.filters
  | .sorting => c.sorting
  | .params => c.params

def value (c : Config) : (setting : Setting) → setting.Value
  | .name => c.name
  | .description => c.description
  | .method => c.method
  | .path => c.path
  | .primaryTable => c.primaryTable
  | .primaryName => c.primaryName
  | .pagination => c.pagination
  | .customSorting => c.allowCustomSorting
  | .fieldSelection => c.allowFieldSelection
  | .distinct => c.distinct
  | .hardLimit => c.hardLimit
  | .entries list => c.entries list

theorem ext_value {c d : Config} (h : ∀ setting, c.value setting = d.value setting) : c = d := by
  cases c
  cases d
  rw [Config.mk.injEq]
  exact ⟨h .name, h .description, h .method, h .path, h .primaryTable, h .primaryName,
    h (.entries .joins), h (.entries .fields), h (.entries .filters), h (.entries .sorting),
    h .pagination, h (.entries .params), h .customSorting, h .fieldSelection, h .distinct,
    h .hardLimit⟩

end Config

namespace Edit

def setting : Edit → Setting
  | .method _ => .method
  | .path _ => .path
  | .primaryTable _ => .primaryTable
  | .primaryName _ => .primaryName
  | .pagination _ => .pagination
  | .distinct _ => .distinct
  | .hardLimit _ => .hardLimit
  | .customSorting _ => .customSorting
  | .fieldSelection _ => .fieldSelection
  | .joins _ => .entries .joins
  | .fields _ => .entries .fields
  | .filters _ => .entries .filters
  | .sorting _ => .entries .sorting
  | .params _ => .entries .params

def ofList : (list : EntryList) → ListEdit list.Entry → Edit
  | .fields, edit => .fields edit
  | .joins, edit => .joins edit
  | .filters, edit => .filters edit
  | .sorting, edit => .sorting edit
  | .params, edit => .params edit

theorem setting_ofList (list : EntryList) (edit : ListEdit list.Entry) :
    (ofList list edit).setting = .entries list := by
  cases list <;> rfl

end Edit

namespace Config

variable {c : Config} {e f : Edit} {s : Setting} {list : EntryList}

theorem value_apply_of_ne (h : s ≠ e.setting) : (c.apply e).value s = c.value s := by
  cases e
  all_goals
    cases s with
    | entries list => cases list <;> first | rfl | exact absurd rfl h
    | _ => first | rfl | exact absurd rfl h

def SameBeside (list : EntryList) (c d : Config) : Prop :=
  ∀ s ≠ .entries list, d.value s = c.value s

theorem SameBeside.refl (list : EntryList) (c : Config) : SameBeside list c c :=
  fun _ _ => rfl

theorem SameBeside.apply {d : Config} (h : SameBeside list c d) (edit : ListEdit list.Entry) :
    SameBeside list c (d.apply (.ofList list edit)) := by
  intro s hs
  rw [value_apply_of_ne (by rwa [Edit.setting_ofList]), h s hs]

/-- Edits of one list come to the same as soon as they leave the same list behind. -/
theorem SameBeside.eq {d d' : Config} (h : SameBeside list c d) (h' : SameBeside list c d')
    (hlist : d.entries list = d'.entries list) : d = d' := by
  apply ext_value
  intro s
  by_cases hs : s = .entries list
  · subst hs
    exact hlist
  · rw [h s hs, h' s hs]

end Config

end EndpointPreview
