import EndpointPreview.Config.Basic
/-!
Edits of a configuration. An edit of an entry that is not there changes nothing.
-/

namespace EndpointPreview

inductive ListEdit (α : Type)
  | add
  | update (index : Nat) (entry : α)
  | remove (index : Nat)
deriving DecidableEq

def ListEdit.apply (blank : α) (edit : ListEdit α) (entries : List α) : List α :=
  match edit with
  | .add => entries ++ [blank]
  | .update index entry => entries.set index entry
  | .remove index => entries.eraseIdx index

inductive Edit
  | method (value : Method)
  | path (value : String)
  | primaryTable (value : String)
  | primaryName (value : Option String)
  | pagination (value : Config.Pagination)
  | distinct (value : Bool)
  | hardLimit (value : Option UInt32)
  | customSorting (value : Bool)
  | fieldSelection (value : Bool)
  | joins (edit : ListEdit Config.Join)
  | fields (edit : ListEdit Config.Field)
  | filters (edit : ListEdit Config.Filter)
  | sorting (edit : ListEdit Config.SortKey)
  | params (edit : ListEdit Config.Param)
deriving DecidableEq

def Config.apply (c : Config) : Edit → Config
  | .method v => { c with method := v }
  | .path v => { c with path := v }
  | .primaryTable v => { c with primaryTable := v }
  | .primaryName v => { c with primaryName := v }
  | .pagination v => { c with pagination := v }
  | .distinct v => { c with distinct := v }
  | .hardLimit v => { c with hardLimit := v }
  | .customSorting v => { c with allowCustomSorting := v }
  | .fieldSelection v => { c with allowFieldSelection := v }
  | .joins edit => { c with joins := edit.apply {} c.joins }
  | .fields edit => { c with fields := edit.apply {} c.fields }
  | .filters edit => { c with filters := edit.apply {} c.filters }
  | .sorting edit => { c with sorting := edit.apply {} c.sorting }
  | .params edit => { c with params := edit.apply {} c.params }

end EndpointPreview
