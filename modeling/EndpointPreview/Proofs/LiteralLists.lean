import EndpointPreview.Proofs.TextLaws
/-!
The reading of a list of literals. A quoted item reaches to the quote that closes it, whatever stands
behind that, and every item is trimmed.
-/

namespace EndpointPreview

open Text

namespace ValueText

def doubled (cs : List Char) : List Char :=
  cs.flatMap fun c => if c = '\'' then ['\'', '\''] else [c]

def IsQuoted (item : List Char) : Prop :=
  ∃ text, item = '\'' :: doubled text ++ ['\'']

theorem doubled_cons_quote (cs : List Char) : doubled ('\'' :: cs) = '\'' :: '\'' :: doubled cs :=
  rfl

theorem doubled_cons {c : Char} (h : c ≠ '\'') (cs : List Char) :
    doubled (c :: cs) = c :: doubled cs := by
  rw [doubled, List.flatMap_cons, if_neg h]
  rfl

theorem quotedRest_close {r : List Char} (h : '\'' ∉ r.head?) :
    quotedRest ('\'' :: r) = some (['\''], r) := by
  cases r with
  | nil => rfl
  | cons c r =>
    rw [quotedRest]
    rintro s ⟨⟩
    exact h rfl

theorem quotedRest_other {c : Char} (h : c ≠ '\'') (s : List Char) :
    quotedRest (c :: s) = (quotedRest s).map fun (q, r) => (c :: q, r) := by
  rw [quotedRest]
  · rintro _ rfl
    exact absurd rfl h
  · exact h

theorem quotedRest_doubled (cs : List Char) {r : List Char} (h : '\'' ∉ r.head?) :
    quotedRest (doubled cs ++ '\'' :: r) = some (doubled cs ++ ['\''], r) := by
  induction cs with
  | nil => exact quotedRest_close h
  | cons c cs ih =>
    by_cases hc : c = '\''
    · subst hc
      rw [doubled_cons_quote, List.cons_append, List.cons_append, quotedRest, ih]
      rfl
    · rw [doubled_cons hc, List.cons_append, quotedRest_other hc, ih]
      rfl

theorem exists_doubled_of_quotedRest {s q r : List Char} (h : quotedRest s = some (q, r)) :
    '\'' ∉ r.head? ∧ ∃ cs, s = doubled cs ++ '\'' :: r ∧ q = doubled cs ++ ['\''] := by
  fun_induction quotedRest s generalizing q with
  | case1 => cases h
  | case2 s ih =>
    obtain ⟨⟨q', r'⟩, hq, he⟩ := Option.map_eq_some_iff.mp h
    cases he
    obtain ⟨hr, cs, rfl, rfl⟩ := ih hq
    exact ⟨hr, '\'' :: cs, rfl, rfl⟩
  | case3 s hs =>
    cases h
    refine ⟨?_, [], rfl, rfl⟩
    intro hr
    obtain ⟨t, ht⟩ := List.head?_eq_some_iff.mp hr
    exact hs t ht
  | case4 c s _ hc ih =>
    obtain ⟨⟨q', r'⟩, hq, he⟩ := Option.map_eq_some_iff.mp h
    cases he
    obtain ⟨hr, cs, rfl, rfl⟩ := ih hq
    have hc : c ≠ '\'' := hc
    exact ⟨hr, c :: cs, by rw [doubled_cons hc]; rfl, by rw [doubled_cons hc]; rfl⟩

theorem exists_doubled_of_quoted {s q r : List Char} (h : quoted? s = some (q, r)) :
    ∃ cs, s = q ++ r ∧ q = '\'' :: doubled cs ++ ['\''] := by
  unfold quoted? at h
  split at h
  · obtain ⟨⟨q', r'⟩, hq, he⟩ := Option.map_eq_some_iff.mp h
    cases he
    obtain ⟨-, cs, rfl, rfl⟩ := exists_doubled_of_quotedRest hq
    exact ⟨cs, by simp, rfl⟩
  · cases h

theorem item_of_quoted {s q r : List Char} (h : quoted? (skipSpacing s) = some (q, r)) :
    item s = (q, skipSpacing r) := by
  simp only [item, h]

theorem items?_eq (s : List Char) :
    items? s = match (item s).2 with
      | [] => some [(item s).1]
      | c :: r => if c = ',' then (items? r).map ((item s).1 :: ·) else none := by
  rw [items?]
  split <;> simp_all

theorem trimChars_quoted {s q r : List Char} (h : quoted? s = some (q, r)) : trimChars q = q := by
  obtain ⟨cs, -, rfl⟩ := exists_doubled_of_quoted h
  apply trimChars_eq_self
  · rintro c ⟨⟩
    decide
  · rw [List.getLast?_concat]
    rintro c ⟨⟩
    decide

theorem trimChars_item (s : List Char) : trimChars (item s).1 = (item s).1 := by
  unfold item
  dsimp only
  split
  · next q r h => exact trimChars_quoted h
  · exact trimChars_trimChars _

theorem trimChars_of_mem_items {s : List Char} {found : List (List Char)}
    (h : items? s = some found) {x : List Char} (hx : x ∈ found) : trimChars x = x := by
  fun_induction items? s generalizing found with
  | case1 s hrest =>
    cases h
    rw [List.mem_singleton.mp hx]
    exact trimChars_item s
  | case2 s rest hlt hrest ih =>
    obtain ⟨others, hothers, rfl⟩ := Option.map_eq_some_iff.mp h
    rcases List.mem_cons.mp hx with rfl | hx
    · exact trimChars_item s
    · exact ih hothers hx
  | case3 => cases h

theorem literal_trimmed {s text : String} (h : text ∈ literals s) :
    text ≠ "" ∧ trim text = text := by
  unfold literals at h
  dsimp only at h
  obtain ⟨cs, hcs, rfl⟩ := List.mem_map.mp h
  obtain ⟨hmem, hne⟩ := List.mem_filter.mp hcs
  have htrim : trimChars cs = cs := by
    cases hitems : items? s.toList with
    | some found =>
      rw [hitems] at hmem
      exact trimChars_of_mem_items hitems hmem
    | none =>
      rw [hitems] at hmem
      obtain ⟨piece, -, rfl⟩ := List.mem_map.mp hmem
      exact trimChars_trimChars piece
  constructor
  · intro he
    have hnil : cs = [] := by simpa using congrArg String.toList he
    simp [hnil] at hne
  · rw [trim, String.toList_ofList, htrim]

end ValueText
end EndpointPreview
