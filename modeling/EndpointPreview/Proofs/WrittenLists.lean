import Mathlib.Data.List.Forall2
import EndpointPreview.Proofs.PaddedLists
/-!
Lists as they are written: pieces between commas, of which each holds one item or is blank. Every
text is written so from the items that are read from it, and what is written with plain spacing is
read back.
-/

namespace EndpointPreview

open Text

namespace ValueText

structure IsBare (item : List Char) : Prop where
  nonempty : item ≠ []
  noComma : ',' ∉ item
  noQuote : '\'' ∉ item.head?
  starts : ∀ c ∈ item.head?, isBlank c = false
  ends : ∀ c ∈ item.getLast?, isBlank c = false

/-- Pieces with the items that they hold, between characters of one kind; other pieces are blank. -/
inductive Holds (around : Char → Bool) : List (List Char) → List (List Char) → Prop
  | nil : Holds around [] []
  | item {before item after : List Char} {pieces items : List (List Char)}
      (hbefore : ∀ c ∈ before, around c = true) (hafter : ∀ c ∈ after, around c = true)
      (rest : Holds around pieces items) :
      Holds around ((before ++ item ++ after) :: pieces) (item :: items)
  | blank {gap : List Char} {pieces items : List (List Char)}
      (hgap : ∀ c ∈ gap, isBlank c = true) (rest : Holds around pieces items) :
      Holds around (gap :: pieces) items

/-- The text has these items, in this order, and beside them only commas and the characters that may
stand around an item. -/
def Written (around : Char → Bool) (s : String) (items : List String) : Prop :=
  ∃ pieces, s.toList = [','].intercalate pieces ∧ Holds around pieces (items.map String.toList)

def ReadsAs (piece item : List Char) : Prop :=
  ∀ r, Stops (!isComma ·) r → ValueText.item (piece ++ r) = (item, r)

theorem skipSpacing_of_stops {r : List Char} (hr : Stops (!isComma ·) r) : skipSpacing r = r := by
  cases r with
  | nil => rfl
  | cons c r =>
    have hc : c = ',' := by simpa [isComma] using hr c rfl
    rw [hc]
    rfl

theorem not_opens_append {piece r : List Char} (h : ¬Opens piece) (hr : Stops (!isComma ·) r) :
    ¬Opens (piece ++ r) := by
  rw [opens_iff] at h ⊢
  rw [skipSpacing_append_blank, skipSpacing_of_stops hr]
  split
  · intro hquote
    exact absurd (hr _ hquote) (by decide)
  · next hne => rwa [List.head?_append_of_ne_nil _ hne]

theorem readsAs_unquoted {piece : List Char} (hcomma : ',' ∉ piece) (hopens : ¬Opens piece) :
    ReadsAs piece (trimChars piece) := by
  intro r hr
  have hpiece := not_isComma_of_not_mem hcomma
  rw [item_of_bare (quoted?_eq_none (not_opens_append hopens hr)), hr.takeWhile_append hpiece,
    hr.dropWhile_append hpiece]

theorem readsAs_blank {gap : List Char} (h : ∀ c ∈ gap, isBlank c = true) : ReadsAs gap [] := by
  have hopens : ¬Opens gap := by
    rintro ⟨spacing, rest, -, rfl⟩
    exact quote_not_mem_blank h (List.mem_append_right _ List.mem_cons_self)
  have hread := readsAs_unquoted (comma_not_mem_blank h) hopens
  rwa [trimChars_eq_nil.mpr h] at hread

theorem readsAs_bare {before item after : List Char} (h : IsBare item)
    (hbefore : ∀ c ∈ before, isSpacing c = true) (hafter : ∀ c ∈ after, isSpacing c = true) :
    ReadsAs (before ++ item ++ after) item := by
  have hblank := blank_of_spacing hbefore
  have hblank' := blank_of_spacing hafter
  have htrim : trimChars (before ++ item ++ after) = item := by
    rw [trimChars_append_blank hblank', trimChars_blank_append hblank,
      trimChars_eq_self h.starts h.ends]
  have hcomma : ',' ∉ before ++ item ++ after := by
    simp [comma_not_mem_blank hblank, comma_not_mem_blank hblank', h.noComma]
  have hopens : ¬Opens (before ++ item ++ after) := by
    obtain ⟨c, rest, rfl⟩ := List.exists_cons_of_ne_nil h.nonempty
    have hc : isSpacing c = false := by
      by_contra hne
      have hstart := h.starts c rfl
      rw [isBlank_of_isSpacing (Bool.not_eq_false _ ▸ hne)] at hstart
      cases hstart
    rw [opens_iff, List.append_assoc, skipSpacing_append hbefore]
    simpa [skipSpacing, hc] using h.noQuote
  simpa only [htrim] using readsAs_unquoted hcomma hopens

theorem readsAs_quoted {before item after : List Char} (h : IsQuoted item)
    (hbefore : ∀ c ∈ before, isSpacing c = true) (hafter : ∀ c ∈ after, isSpacing c = true) :
    ReadsAs (before ++ item ++ after) item := by
  obtain ⟨text, rfl⟩ := h
  intro r hr
  have hclosed : '\'' ∉ (after ++ r).head? := by
    intro hquote
    cases after with
    | nil => exact absurd (hr _ hquote) (by decide)
    | cons c after =>
      exact quote_not_mem_blank (blank_of_spacing hafter) (List.mem_of_mem_head? hquote)
  have hquoted : quoted? (skipSpacing (before ++ ('\'' :: doubled text ++ ['\'']) ++ after ++ r)) =
      some ('\'' :: doubled text ++ ['\''], after ++ r) := by
    have hchars : before ++ ('\'' :: doubled text ++ ['\'']) ++ after ++ r =
        before ++ '\'' :: (doubled text ++ '\'' :: (after ++ r)) := by simp
    have hquote : isSpacing '\'' = false := by decide
    rw [hchars, skipSpacing_append hbefore, skipSpacing, List.dropWhile_cons_of_neg (by simp [hquote]),
      quoted?, quotedRest_doubled text hclosed]
    rfl
  rw [item_of_quoted hquoted, skipSpacing_append hafter, skipSpacing_of_stops hr]

theorem items?_intercalate {pieces found : List (List Char)}
    (h : List.Forall₂ ReadsAs pieces found) (hne : pieces ≠ []) :
    items? ([','].intercalate pieces) = some found := by
  induction h with
  | nil => exact absurd rfl hne
  | @cons piece item pieces found hpiece hrest ih =>
    cases hrest with
    | nil =>
      have hread := hpiece [] (stops_nil _)
      rw [List.append_nil] at hread
      rw [List.intercalate_singleton, items?_eq, hread]
    | cons hnext hothers =>
      have hread := fun r => hpiece (',' :: r) (stops_cons rfl r)
      rw [List.intercalate_cons_cons, List.append_assoc, List.singleton_append, items?_eq, hread]
      dsimp only
      rw [if_pos rfl, ih (List.cons_ne_nil _ _), Option.map_some]

theorem Holds.exists_readsAs {pieces items : List (List Char)} (h : Holds isSpacing pieces items)
    (hitems : ∀ item ∈ items, IsBare item ∨ IsQuoted item) :
    ∃ found, List.Forall₂ ReadsAs pieces found ∧ found.filter (· ≠ []) = items := by
  induction h with
  | nil => exact ⟨[], .nil, rfl⟩
  | @item before item after pieces items hbefore hafter rest ih =>
    obtain ⟨found, hfound, hfilter⟩ := ih fun x hx => hitems x (List.mem_cons_of_mem _ hx)
    have hread : ReadsAs (before ++ item ++ after) item ∧ item ≠ [] := by
      rcases hitems item List.mem_cons_self with h | h
      · exact ⟨readsAs_bare h hbefore hafter, h.nonempty⟩
      · refine ⟨readsAs_quoted h hbefore hafter, ?_⟩
        obtain ⟨text, rfl⟩ := h
        exact List.cons_ne_nil _ _
    refine ⟨item :: found, .cons hread.1 hfound, ?_⟩
    rw [List.filter_cons_of_pos (by simp [hread.2]), hfilter]
  | blank hgap rest ih =>
    obtain ⟨found, hfound, hfilter⟩ := ih hitems
    exact ⟨[] :: found, .cons (readsAs_blank hgap) hfound, hfilter⟩

theorem literals_eq_filter {s : String} {pieces found : List (List Char)}
    (hs : s.toList = [','].intercalate pieces) (h : List.Forall₂ ReadsAs pieces found) :
    literals s = (found.filter (· ≠ [])).map String.ofList := by
  cases h with
  | nil =>
    -- No piece at all makes the same text as one blank piece.
    have hblank : List.Forall₂ ReadsAs [[]] [[]] := .cons (readsAs_blank (by simp)) .nil
    have hsame : [','].intercalate ([] : List (List Char)) = [','].intercalate [[]] := rfl
    rw [literals, hs, hsame, items?_intercalate hblank (List.cons_ne_nil _ _)]
    rfl
  | cons hpiece hrest =>
    rw [literals, hs, items?_intercalate (.cons hpiece hrest) (List.cons_ne_nil _ _), Option.getD_some]

theorem exists_frames_of_items {s : List Char} {found : List (List Char)}
    (h : items? s = some found) :
    ∃ pieces, s = [','].intercalate pieces ∧ List.Forall₂ Frames pieces found ∧ pieces ≠ [] := by
  fun_induction items? s generalizing found with
  | case1 s hrest =>
    obtain ⟨piece, hs, hpiece⟩ := exists_framing s
    cases h
    rw [hrest, List.append_nil] at hs
    exact ⟨[piece], by rw [List.intercalate_singleton, ← hs], .cons hpiece .nil,
      List.cons_ne_nil _ _⟩
  | case2 s r hrest hlt ih =>
    obtain ⟨piece, hs, hpiece⟩ := exists_framing s
    obtain ⟨others, hothers, rfl⟩ := Option.map_eq_some_iff.mp h
    obtain ⟨pieces, hr, hpieces, hne⟩ := ih hothers
    obtain ⟨next, pieces, rfl⟩ := List.exists_cons_of_ne_nil hne
    refine ⟨piece :: next :: pieces, ?_, .cons hpiece hpieces, List.cons_ne_nil _ _⟩
    rw [List.intercalate_cons_cons, ← hr]
    conv_lhs => rw [hs, hrest]
    simp
  | case3 => cases h

theorem comma_not_mem_of_mem_splitOn {s piece : List Char} (h : piece ∈ s.splitOn ',') :
    ',' ∉ piece := by
  induction s using cut_induction ',' with
  | whole s hs =>
    rw [List.splitOn_eq_singleton hs] at h
    rwa [List.mem_singleton.mp h]
  | cut first rest hfirst ih =>
    rw [List.splitOn_append_cons_self, List.splitOn_eq_singleton hfirst] at h
    rcases List.mem_append.mp h with h | h
    · rwa [List.mem_singleton.mp h]
    · exact ih h

theorem exists_frames (s : String) :
    ∃ pieces found, s.toList = [','].intercalate pieces ∧ List.Forall₂ Frames pieces found ∧
      literals s = (found.filter (· ≠ [])).map String.ofList := by
  cases hitems : items? s.toList with
  | some found =>
    obtain ⟨pieces, hs, hpieces, -⟩ := exists_frames_of_items hitems
    exact ⟨pieces, found, hs, hpieces, by rw [literals, hitems, Option.getD_some]⟩
  | none =>
    refine ⟨s.toList.splitOn ',', (s.toList.splitOn ',').map trimChars,
      (List.intercalate_splitOn ',').symm, ?_, by rw [literals, hitems, Option.getD_none]⟩
    apply List.forall₂_map_right_iff.mpr
    apply List.forall₂_same.mpr
    intro piece hpiece
    exact frames_of_noComma (comma_not_mem_of_mem_splitOn hpiece)

theorem holds_of_frames {pieces found : List (List Char)} (h : List.Forall₂ Frames pieces found) :
    Holds isBlank pieces (found.filter (· ≠ [])) := by
  induction h with
  | nil => exact .nil
  | @cons piece item pieces found hpiece _ ih =>
    obtain ⟨⟨before, after, hbefore, hafter, rfl⟩, -⟩ := hpiece
    by_cases hitem : item = []
    · subst hitem
      refine .blank ?_ ih
      intro c hc
      rw [List.append_nil] at hc
      exact (List.mem_append.mp hc).elim (hbefore c) (hafter c)
    · rw [List.filter_cons_of_pos (by simp [hitem])]
      exact .item hbefore hafter ih

theorem isQuoted_of_frames {pieces found : List (List Char)}
    (h : List.Forall₂ Frames pieces found) {item : List Char} (hitem : item ∈ found)
    (hcomma : ',' ∈ item) : IsQuoted item := by
  induction h with
  | nil => cases hitem
  | cons hpiece _ ih =>
    rcases List.mem_cons.mp hitem with rfl | hitem
    · exact hpiece.2 hcomma
    · exact ih hitem

/-- A list that is written with plain spacing around its items is read back as it was. -/
theorem literals_of_written {s : String} {items : List String} (h : Written isSpacing s items)
    (hitems : ∀ item ∈ items, IsBare item.toList ∨ IsQuoted item.toList) : literals s = items := by
  obtain ⟨pieces, hs, hpieces⟩ := h
  obtain ⟨found, hfound, hfilter⟩ := hpieces.exists_readsAs (List.forall_mem_map.mpr hitems)
  rw [literals_eq_filter hs hfound, hfilter, List.map_map]
  simp

theorem literals_of_written_shapes :
    Written isSpacing " 'a, b' ,,\tit's\n,\u3000,''''" ["'a, b'", "it's", "''''"] ∧
      literals " 'a, b' ,,\tit's\n,\u3000,''''" = ["'a, b'", "it's", "''''"] := by
  have hwritten : Written isSpacing " 'a, b' ,,\tit's\n,\u3000,''''" ["'a, b'", "it's", "''''"] := by
    refine ⟨[[' '] ++ "'a, b'".toList ++ [' '], [], ['\t'] ++ "it's".toList ++ ['\n'], ['\u3000'],
      [] ++ "''''".toList ++ []], rfl, ?_⟩
    have hspace : ∀ c ∈ [' '], isSpacing c = true := List.forall_mem_singleton.mpr rfl
    have htab : ∀ c ∈ ['\t'], isSpacing c = true := List.forall_mem_singleton.mpr rfl
    have hnewline : ∀ c ∈ ['\n'], isSpacing c = true := List.forall_mem_singleton.mpr rfl
    have hgap : ∀ c ∈ ['\u3000'], isBlank c = true := List.forall_mem_singleton.mpr rfl
    have hnone := List.forall_mem_nil (isSpacing · = true)
    exact .item hspace hspace (.blank (List.forall_mem_nil _) (.item htab hnewline
      (.blank hgap (.item hnone hnone .nil))))
  have hbare : IsBare "it's".toList := by
    refine ⟨List.cons_ne_nil _ _, by decide, by decide, ?_, ?_⟩
    · rintro c ⟨⟩
      rfl
    · rintro c ⟨⟩
      rfl
  refine ⟨hwritten, literals_of_written hwritten ?_⟩
  simp only [List.forall_mem_cons]
  exact ⟨.inr ⟨"a, b".toList, rfl⟩, .inl hbare, .inr ⟨['\''], rfl⟩, List.forall_mem_nil _⟩

/-- No text of a list is lost and none is made up: beside the items there are only commas and blank
characters. -/
theorem written_literals (s : String) :
    Written isBlank s (literals s) ∧ ∀ item ∈ literals s,
      item ≠ "" ∧ trim item = item ∧ (',' ∈ item.toList → IsQuoted item.toList) := by
  obtain ⟨pieces, found, hs, hfound, hliterals⟩ := exists_frames s
  constructor
  · refine ⟨pieces, hs, ?_⟩
    rw [hliterals, List.map_map]
    simpa using holds_of_frames hfound
  · intro item hitem
    obtain ⟨hne, htrim⟩ := literal_trimmed hitem
    refine ⟨hne, htrim, ?_⟩
    rw [hliterals] at hitem
    obtain ⟨cs, hcs, rfl⟩ := List.mem_map.mp hitem
    rw [String.toList_ofList]
    exact isQuoted_of_frames hfound (List.mem_of_mem_filter hcs)

example : literals "'a,b'\u00a0, c" = ["'a", "b'", "c"] := by
  decide +kernel

end ValueText
end EndpointPreview
