import EndpointPreview.Vocabulary
/-!
Diagnostics: what is wrong with a configuration, and where.
-/

namespace EndpointPreview

inductive EntryList
  | fields | joins | filters | sorting | params
deriving DecidableEq, Repr

def EntryList.key : EntryList → String
  | .fields => "selectedFields"
  | .joins => "joins"
  | .filters => "filters"
  | .sorting => "sorting"
  | .params => "queryParams"

inductive Part
  | table | asName | leftColumn | rightColumn | column | value | secondValue | name
deriving DecidableEq, Repr

def Part.key : Part → String
  | .table => "table"
  | .asName => "alias"
  | .leftColumn => "leftColumn"
  | .rightColumn => "rightColumn"
  | .column => "column"
  | .value => "value"
  | .secondValue => "secondValue"
  | .name => "name"

inductive Location
  | primaryTable
  | primaryName
  | defaultLimit
  | entry (list : EntryList) (index : Nat) (part : Part)
deriving DecidableEq, Repr

def Location.path : Location → String
  | .primaryTable => "primaryTable"
  | .primaryName => "primaryTableAlias"
  | .defaultLimit => "pagination.defaultLimit"
  | .entry list index part => s!"{list.key}[{index}].{part.key}"

inductive Problem
  | badName (text : String)
  | noValue
  | noSecondValue (operator : Operator)
  | notAParameter (text : String)
  | undeclared (name : String)
  | notAFunction (text : String)
  | repeatedOutput (name : String)
  | limitTooHigh (limit greatest : UInt32)
deriving DecidableEq, Repr

def Problem.message : Problem → String
  | .badName text => "'" ++ text ++ "' is not a safe identifier " ++
      "(expected letters, digits and underscores, not starting with a digit)"
  | .noValue => "value is required"
  | .noSecondValue operator => "second value for '" ++ operator.name ++ "' is required"
  | .notAParameter text => "'" ++ text ++ "' is not a valid parameter reference"
  | .undeclared name => "parameter '" ++ name ++ "' is not declared in queryParams"
  | .notAFunction text => "unknown function '" ++ text ++ "' (expected one of " ++
      ", ".intercalate (Function.all.map Function.call) ++ ")"
  | .repeatedOutput name => "output name '" ++ name ++
      "' is already used by another field; add an alias"
  | .limitTooHigh limit greatest =>
      "default limit " ++ toString limit.toNat ++ " exceeds max limit " ++ toString greatest.toNat

structure Diagnostic where
  location : Location
  problem : Problem
deriving DecidableEq, Repr

end EndpointPreview
