import EndpointPreview.Keyed
/-!
TOML values and the growth of a table from headers and dotted keys. Of numbers and dates only the
kind is kept.
-/

namespace EndpointPreview.Toml

inductive Scalar
  | integer | float | boolean | date
deriving DecidableEq

inductive Origin
  | header
  /-- The way to the table of a longer header. -/
  | passage
  | dotted
  | inline
deriving DecidableEq

inductive Value
  | text (s : String)
  | scalar (kind : Scalar)
  | list (items : List Value)
  | table (origin : Origin) (entries : List (String × Value))
  | tables (elements : List (List (String × Value)))

abbrev Entries : Type := List (String × Value)

abbrev Change : Type := Origin → Entries → Option Entries

/-- Changes the table that a path leads to. Missing tables on the way are made; by dotted keys,
tables that have a header cannot be reached. -/
def Change.along (change : Change) (dotted : Bool) : List String → Change
  | [], origin, entries => change origin entries
  | key :: path, _, entries =>
    match entries.lookup key with
    | none => do
      let made := if dotted then .dotted else .passage
      let inner ← change.along dotted path made []
      return Keyed.put key (.table made inner) entries
    | some (.table origin inner) =>
      if origin = .inline ∨ (dotted ∧ origin = .header) then none
      else do
        let inner ← change.along dotted path origin inner
        return Keyed.put key (.table origin inner) entries
    | some (.tables elements) => do
      let last ← elements.getLast?
      let inner ← change.along dotted path .header last
      return Keyed.put key (.tables (elements.dropLast ++ [inner])) entries
    | some _ => none

def Change.assign (dotted : Bool) (key : String) (value : Value) : Change := fun origin entries =>
  if dotted = (origin = .dotted) ∧ (entries.lookup key).isNone then
    some (entries ++ [(key, value)])
  else none

def Change.openTable (key : String) : Change := fun _ entries =>
  match entries.lookup key with
  | none => some (entries ++ [(key, .table .header [])])
  | some (.table .passage inner) => some (Keyed.put key (.table .header inner) entries)
  | some _ => none

def Change.openElement (key : String) : Change := fun _ entries =>
  match entries.lookup key with
  | none => some (entries ++ [(key, .tables [[]])])
  | some (.tables elements) => some (Keyed.put key (.tables (elements ++ [[]])) entries)
  | some _ => none

def Change.assignPath (path : List String) (key : String) (value : Value) : Change :=
  (Change.assign (!path.isEmpty) key value).along true path

end EndpointPreview.Toml
