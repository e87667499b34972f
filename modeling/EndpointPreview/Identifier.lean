import EndpointPreview.Text.Blank
/-!
Identifiers and column references: the only names that are written into a query unchanged.
-/

namespace EndpointPreview

def isNameStart (c : Char) : Bool :=
  c.isAlpha || c == '_'

def isNameRest (c : Char) : Bool :=
  c.isAlphanum || c == '_'

def isName : List Char → Bool
  | [] => false
  | c :: cs => isNameStart c && cs.all isNameRest

def isIdentifier (s : String) : Bool :=
  isName s.toList

def isColumnPath (s : String) : Bool :=
  (s.toList.splitOn '.').all isName

theorem isNameRest_of_isNameStart {c : Char} (h : isNameStart c = true) : isNameRest c = true := by
  simp only [isNameStart, isNameRest, Char.isAlphanum, Bool.or_eq_true] at h ⊢
  rcases h with h | h
  · exact .inl (.inl h)
  · exact .inr h

theorem isNameRest_of_mem {cs : List Char} (h : isName cs = true) {c : Char} (hc : c ∈ cs) :
    isNameRest c = true := by
  cases cs with
  | nil => cases hc
  | cons d ds =>
    simp only [isName, Bool.and_eq_true, List.all_eq_true] at h
    rcases List.mem_cons.mp hc with rfl | hc
    · exact isNameRest_of_isNameStart h.1
    · exact h.2 c hc

theorem dot_not_mem_of_isName {cs : List Char} (h : isName cs = true) : '.' ∉ cs :=
  fun hc => absurd (isNameRest_of_mem h hc) (by decide)

structure Ident where
  text : String
  safe : isIdentifier text = true
deriving DecidableEq

namespace Ident

/-- Reads the text without its surrounding blank characters. -/
def ofText? (s : String) : Option Ident :=
  if h : isIdentifier (Text.trim s) = true then some ⟨Text.trim s, h⟩ else none

end Ident

structure ColumnRef where
  text : String
  safe : isColumnPath text = true
deriving DecidableEq

namespace ColumnRef

def ofText? (s : String) : Option ColumnRef :=
  if h : isColumnPath (Text.trim s) = true then some ⟨Text.trim s, h⟩ else none

theorem isColumnPath_qualified (table column : Ident) :
    isColumnPath (table.text ++ "." ++ column.text) = true := by
  have ht : isName table.text.toList = true := table.safe
  have hc : isName column.text.toList = true := column.safe
  have hdot : ".".toList = ['.'] := rfl
  rw [isColumnPath, String.toList_append, String.toList_append, hdot, List.append_assoc,
    List.singleton_append, List.splitOn_append_cons_self, List.splitOn_eq_singleton
      (dot_not_mem_of_isName ht), List.splitOn_eq_singleton (dot_not_mem_of_isName hc)]
  simp [ht, hc]

def qualified (table column : Ident) : ColumnRef :=
  ⟨table.text ++ "." ++ column.text, isColumnPath_qualified table column⟩

def name (c : ColumnRef) : String :=
  String.ofList ((c.text.toList.splitOn '.').getLastD [])

end ColumnRef

end EndpointPreview
