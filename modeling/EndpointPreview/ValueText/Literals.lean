import EndpointPreview.Text.Blank
/-!
Lists of literals in the text of a filter value: items separated by commas, where an item in
single quotes may hold commas, and a quote in it is written twice.
-/

namespace EndpointPreview.ValueText

def skipSpacing (s : List Char) : List Char :=
  s.dropWhile Text.isSpacing

def quotedRest : List Char → Option (List Char × List Char)
  | [] => none
  | '\'' :: '\'' :: s => (quotedRest s).map fun (q, r) => ('\'' :: '\'' :: q, r)
  | '\'' :: s => some (['\''], s)
  | c :: s => (quotedRest s).map fun (q, r) => (c :: q, r)

def quoted? : List Char → Option (List Char × List Char)
  | '\'' :: s => (quotedRest s).map fun (q, r) => ('\'' :: q, r)
  | _ => none

def isComma (c : Char) : Bool :=
  c == ','

/-- An item and what follows it: a quoted item with its quotes, or all that stands before the
next comma, trimmed. -/
def item (s : List Char) : List Char × List Char :=
  let s := skipSpacing s
  match quoted? s with
  | some (q, r) => (q, skipSpacing r)
  | none => (Text.trimChars (s.takeWhile (!isComma ·)), s.dropWhile (!isComma ·))

theorem length_quotedRest {s q r : List Char} (h : quotedRest s = some (q, r)) :
    r.length < s.length := by
  fun_induction quotedRest s generalizing q with
  | case1 => cases h
  | case2 s ih =>
    obtain ⟨⟨q', r'⟩, hq, he⟩ := Option.map_eq_some_iff.mp h
    cases he
    have := ih hq
    simp only [List.length_cons]
    omega
  | case3 s => cases h; simp
  | case4 c s _ _ ih =>
    obtain ⟨⟨q', r'⟩, hq, he⟩ := Option.map_eq_some_iff.mp h
    cases he
    have := ih hq
    simp only [List.length_cons]
    omega

theorem length_skipSpacing (s : List Char) : (skipSpacing s).length ≤ s.length :=
  (List.dropWhile_suffix _).length_le

theorem length_item (s : List Char) : (item s).2.length ≤ s.length := by
  have hs := length_skipSpacing s
  simp only [item]
  split
  · rename_i q r h
    have hr := length_skipSpacing r
    simp only [quoted?] at h
    split at h
    · obtain ⟨⟨q', r'⟩, hq, he⟩ := Option.map_eq_some_iff.mp h
      cases he
      have := length_quotedRest hq
      simp_all only [List.length_cons]
      omega
    · cases h
  · exact Nat.le_trans (List.dropWhile_suffix _).length_le hs

/-- The items of a whole text; there are none where a closing quote is followed by something
other than a comma. -/
def items? (s : List Char) : Option (List (List Char)) :=
  match h : (item s).2 with
  | [] => some [(item s).1]
  | c :: r =>
    have : r.length < s.length := by
      have := length_item s
      rwa [h] at this
    if c = ',' then (items? r).map ((item s).1 :: ·) else none
termination_by s.length

/-- The items that are not empty. Text that has no items in this sense is cut at every comma. -/
def literals (s : String) : List String :=
  let found := (items? s.toList).getD ((s.toList.splitOn ',').map Text.trimChars)
  (found.filter (· ≠ [])).map String.ofList

end EndpointPreview.ValueText
