import EndpointPreview.Resolution.Check
/-!
Surveys of the entries of a list, in order. The check of an entry may depend on what the entries
before it have yielded; its flaws get the index of the entry.
-/

namespace EndpointPreview

def Flaw.at (list : EntryList) (index : Nat) (flaw : Flaw) : Diagnostic :=
  ⟨.entry list index flaw.part, flaw.problem⟩

structure Survey (α : Type) where
  results : List α
  diagnostics : List Diagnostic

namespace Survey

/-- Surveys entries of which the first has an index, after some results. -/
def startingAt (list : EntryList) (check : List α → σ → Check α) (before : List α) (index : Nat) :
    List σ → Survey α
  | [] => ⟨[], []⟩
  | entry :: entries =>
    let checked := check before entry
    let rest := Survey.startingAt list check (before ++ checked.result.toList) (index + 1) entries
    ⟨checked.result.toList ++ rest.results,
      checked.flaws.map (Flaw.at list index) ++ rest.diagnostics⟩

def of (list : EntryList) (check : List α → σ → Check α) (entries : List σ) : Survey α :=
  Survey.startingAt list check [] 0 entries

def each (list : EntryList) (check : σ → Check α) (entries : List σ) : Survey α :=
  of list (fun _ => check) entries

end Survey

end EndpointPreview
