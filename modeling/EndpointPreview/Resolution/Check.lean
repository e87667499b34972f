import EndpointPreview.Diagnostic
import EndpointPreview.Query.Basic
/-!
Checks of one entry: the part of the query that it yields, if any, and the flaws found on the way.
A flaw does not know the index of its entry, so that entries can move.
-/

namespace EndpointPreview

structure Flaw where
  part : Part
  problem : Problem
deriving DecidableEq

structure Check (α : Type) where
  result : Option α
  flaws : List Flaw
deriving DecidableEq

namespace Check

def pass (a : α) : Check α :=
  ⟨some a, []⟩

def skip : Check α :=
  ⟨none, []⟩

def refuse (part : Part) (problem : Problem) : Check α :=
  ⟨none, [⟨part, problem⟩]⟩

def report (part : Part) (problem : Problem) (a : α) : Check α :=
  ⟨some a, [⟨part, problem⟩]⟩

def map (f : α → β) (c : Check α) : Check β :=
  ⟨c.result.map f, c.flaws⟩

def bind (c : Check α) (next : α → Check β) : Check β :=
  match c.result with
  | none => ⟨none, c.flaws⟩
  | some a => ⟨(next a).result, c.flaws ++ (next a).flaws⟩

instance : Monad Check where
  pure := pass
  bind := bind

/-- Both checks are made and both must have a result. -/
def both (c : Check α) (d : Check β) : Check (α × β) :=
  ⟨c.result.bind fun a => d.result.map fun b => (a, b), c.flaws ++ d.flaws⟩

end Check

def checkIdent (part : Part) (text : String) : Check Ident :=
  match Ident.ofText? text with
  | some name => .pass name
  | none => .refuse part (.badName (Text.trim text))

def checkColumn (part : Part) (text : String) : Check ColumnRef :=
  match ColumnRef.ofText? text with
  | some column => .pass column
  | none => .refuse part (.badName (Text.trim text))

def checkAsName (text : Option String) : Check (Option Ident) :=
  match text.bind Text.filled with
  | some name => (checkIdent .asName name).map some
  | none => .pass none

end EndpointPreview
