import Mathlib.Algebra.Group.Nat.Even
import EndpointPreview.Proofs.LiteralLists
/-!
Lists of literals between blank characters. These leave the items as they are, unless they come
between the spacing that items may have and a quote, where a quoted comma would cut its item.
-/

namespace EndpointPreview

open Text

namespace ValueText

theorem quotedRest_append {pad : List Char} (hpad : '\'' ∉ pad) (s : List Char) :
    quotedRest (s ++ pad) = (quotedRest s).map fun (q, r) => (q, r ++ pad) := by
  cases hs : quotedRest s with
  | some found =>
    obtain ⟨q, r⟩ := found
    obtain ⟨hr, cs, rfl, rfl⟩ := exists_doubled_of_quotedRest hs
    rw [List.append_assoc, List.cons_append, quotedRest_doubled]
    · rfl
    · cases r with
      | nil => exact fun h => hpad (List.mem_of_mem_head? h)
      | cons c r => exact hr
  | none =>
    rw [Option.map_none, Option.eq_none_iff_forall_ne_some]
    rintro ⟨q, r⟩ hfound
    obtain ⟨hr, cs, he, -⟩ := exists_doubled_of_quotedRest hfound
    -- The closing quote stands before the padding, so the text had one already.
    obtain ⟨t, rfl, rfl⟩ := split_of_append hpad he
    rw [quotedRest_doubled] at hs
    · cases hs
    · intro ht
      apply hr
      change (t ++ pad).head? = some '\''
      rw [List.head?_append, Option.mem_def.mp ht, Option.some_or]

theorem quoted?_append {pad : List Char} (hpad : '\'' ∉ pad) (s : List Char) :
    quoted? (s ++ pad) = (quoted? s).map fun (q, r) => (q, r ++ pad) := by
  cases s with
  | nil =>
    rw [List.nil_append, quoted?]
    · rfl
    · rintro t rfl
      exact hpad List.mem_cons_self
  | cons c s =>
    by_cases hc : c = '\''
    · subst hc
      simp only [List.cons_append, quoted?, quotedRest_append hpad, Option.map_map]
      rfl
    · have hquote : ∀ t, quoted? (c :: t) = none := by
        intro t
        rw [quoted?]
        rintro _ ⟨⟩
        exact hc rfl
      rw [List.cons_append, hquote, hquote, Option.map_none]

def Opens (s : List Char) : Prop :=
  ∃ spacing rest, (∀ c ∈ spacing, isSpacing c = true) ∧ s = spacing ++ '\'' :: rest

def Closes (s : List Char) : Prop :=
  ∃ front spacing, (∀ c ∈ spacing, isSpacing c = true) ∧ s = front ++ '\'' :: spacing

theorem exists_spacing (s : List Char) :
    ∃ spacing, (∀ c ∈ spacing, isSpacing c = true) ∧ s = spacing ++ skipSpacing s :=
  ⟨s.takeWhile isSpacing, fun _ hc => List.mem_takeWhile_imp hc,
    (List.takeWhile_append_dropWhile (p := isSpacing)).symm⟩

theorem skipSpacing_append {spacing : List Char} (h : ∀ c ∈ spacing, isSpacing c = true)
    (s : List Char) : skipSpacing (spacing ++ s) = skipSpacing s :=
  List.dropWhile_append_of_pos h

theorem opens_iff (s : List Char) : Opens s ↔ (skipSpacing s).head? = some '\'' := by
  constructor
  · rintro ⟨spacing, rest, hspacing, rfl⟩
    rw [skipSpacing_append hspacing]
    rfl
  · intro h
    obtain ⟨rest, hrest⟩ := List.head?_eq_some_iff.mp h
    obtain ⟨spacing, hspacing, hs⟩ := exists_spacing s
    exact ⟨spacing, rest, hspacing, by rw [hs, hrest]⟩

theorem closes_iff_opens_reverse (s : List Char) : Closes s ↔ Opens s.reverse := by
  constructor
  · rintro ⟨front, spacing, hspacing, rfl⟩
    exact ⟨spacing.reverse, front.reverse, fun c hc => hspacing c (List.mem_reverse.mp hc), by simp⟩
  · rintro ⟨spacing, rest, hspacing, he⟩
    refine ⟨rest.reverse, spacing.reverse, fun c hc => hspacing c (List.mem_reverse.mp hc), ?_⟩
    rw [← List.reverse_reverse s, he]
    simp

instance : DecidablePred Opens := fun s => decidable_of_iff' _ (opens_iff s)

instance : DecidablePred Closes := fun s => decidable_of_iff' _ (closes_iff_opens_reverse s)

theorem skipSpacing_append_blank (s pad : List Char) :
    skipSpacing (s ++ pad) = if skipSpacing s = [] then skipSpacing pad else skipSpacing s ++ pad := by
  unfold skipSpacing
  rw [List.dropWhile_append]
  cases s.dropWhile isSpacing <;> rfl

theorem blank_of_spacing {cs : List Char} (h : ∀ c ∈ cs, isSpacing c = true) :
    ∀ c ∈ cs, isBlank c = true :=
  fun c hc => isBlank_of_isSpacing (h c hc)

theorem not_isComma_of_not_mem {s : List Char} (h : ',' ∉ s) : ∀ c ∈ s, (!isComma c) = true := by
  intro c hc
  have hne : c ≠ ',' := fun he => h (he ▸ hc)
  simpa [isComma] using hne

section

variable {pad : List Char} (hpad : ∀ c ∈ pad, isBlank c = true)

include hpad

theorem quote_not_mem_blank : '\'' ∉ pad :=
  fun hc => absurd (hpad _ hc) (by decide)

theorem comma_not_mem_blank : ',' ∉ pad :=
  fun hc => absurd (hpad _ hc) (by decide)

theorem not_isComma_blank : ∀ c ∈ pad, (!isComma c) = true :=
  not_isComma_of_not_mem (comma_not_mem_blank hpad)

end

theorem quoted?_eq_none {s : List Char} (h : ¬Opens s) : quoted? (skipSpacing s) = none := by
  rw [Option.eq_none_iff_forall_ne_some]
  rintro ⟨q, r⟩ hq
  obtain ⟨cs, he, rfl⟩ := exists_doubled_of_quoted hq
  obtain ⟨spacing, hspacing, hs⟩ := exists_spacing s
  exact h ⟨spacing, _, hspacing, hs.trans (by rw [he]; rfl)⟩

theorem item_of_bare {s : List Char} (h : quoted? (skipSpacing s) = none) :
    item s = (trimChars (s.takeWhile (!isComma ·)), s.dropWhile (!isComma ·)) := by
  obtain ⟨spacing, hspacing, hs⟩ := exists_spacing s
  have hblank := blank_of_spacing hspacing
  have hcomma := not_isComma_blank hblank
  simp only [item, h]
  conv_rhs => rw [hs, List.takeWhile_append_of_pos hcomma, List.dropWhile_append_of_pos hcomma,
    trimChars_blank_append hblank]

section

variable {pad : List Char} (hpad : ∀ c ∈ pad, isBlank c = true)

include hpad

theorem opens_of_blank_append {s : List Char} (h : Opens (pad ++ s)) : Opens s := by
  obtain ⟨spacing, rest, hspacing, he⟩ := h
  obtain ⟨t, rfl, rfl⟩ := split_of_prepend (quote_not_mem_blank hpad) he
  exact ⟨t, rest, fun c hc => hspacing c (List.mem_append_right _ hc), rfl⟩

theorem closes_of_blank_append {s : List Char} (h : Closes (pad ++ s)) : Closes s := by
  obtain ⟨front, spacing, hspacing, he⟩ := h
  obtain ⟨t, -, rfl⟩ := split_of_prepend (quote_not_mem_blank hpad) he
  exact ⟨t, spacing, hspacing, rfl⟩

theorem item_blank_append {s : List Char} (h : (∀ c ∈ pad, isSpacing c = true) ∨ ¬Opens s) :
    item (pad ++ s) = item s := by
  rcases h with h | h
  · simp only [item, skipSpacing_append h]
  · have hcomma := not_isComma_blank hpad
    have hopens : ¬Opens (pad ++ s) := fun ho => h (opens_of_blank_append hpad ho)
    rw [item_of_bare (quoted?_eq_none h), item_of_bare (quoted?_eq_none hopens),
      List.takeWhile_append_of_pos hcomma, List.dropWhile_append_of_pos hcomma,
      trimChars_blank_append hpad]

end

/-- The piece is the item between blank characters, and no comma of the item is bare. -/
def Frames (piece item : List Char) : Prop :=
  (∃ before after, (∀ c ∈ before, isBlank c = true) ∧ (∀ c ∈ after, isBlank c = true) ∧
    piece = before ++ item ++ after) ∧ (',' ∈ item → IsQuoted item)

theorem frames_of_noComma {piece : List Char} (h : ',' ∉ piece) :
    Frames piece (trimChars piece) := by
  obtain ⟨before, after, hbefore, hafter, he⟩ := exists_trimmed piece
  refine ⟨⟨before, after, hbefore, hafter, he⟩, ?_⟩
  intro hcomma
  rw [he] at h
  exact absurd (List.mem_append_left _ (List.mem_append_right _ hcomma)) h

theorem exists_framing (s : List Char) :
    ∃ piece, s = piece ++ (item s).2 ∧ Frames piece (item s).1 := by
  cases hq : quoted? (skipSpacing s) with
  | some found =>
    obtain ⟨q, r⟩ := found
    obtain ⟨text, he, hquoted⟩ := exists_doubled_of_quoted hq
    obtain ⟨before, hbefore, hs⟩ := exists_spacing s
    obtain ⟨after, hafter, hr⟩ := exists_spacing r
    rw [item_of_quoted hq]
    refine ⟨before ++ q ++ after, ?_, ⟨before, after, blank_of_spacing hbefore,
      blank_of_spacing hafter, rfl⟩, fun _ => ⟨text, hquoted⟩⟩
    conv_lhs => rw [hs, he, hr]
    simp
  | none =>
    rw [item_of_bare hq]
    refine ⟨s.takeWhile (!isComma ·), List.takeWhile_append_dropWhile.symm, frames_of_noComma ?_⟩
    intro hc
    exact absurd (List.mem_takeWhile_imp (p := (!isComma ·)) hc) (by decide)

theorem item_suffix (s : List Char) : (item s).2 <:+ s := by
  obtain ⟨piece, hs, -⟩ := exists_framing s
  exact ⟨piece, hs.symm⟩

theorem Closes.of_suffix {r s : List Char} (h : Closes r) (hr : r <:+ s) : Closes s := by
  obtain ⟨front, spacing, hspacing, rfl⟩ := h
  obtain ⟨before, rfl⟩ := hr
  exact ⟨before ++ front, spacing, hspacing, by rw [List.append_assoc]⟩

theorem skipSpacing_append_last {s q r pad : List Char} (hq : quoted? (skipSpacing s) = some (q, r))
    (hlast : skipSpacing r = [] → (∀ c ∈ pad, isSpacing c = true) ∨ ¬Closes s) :
    skipSpacing (r ++ pad) = if skipSpacing r = [] then [] else skipSpacing r ++ pad := by
  rw [skipSpacing_append_blank]
  split
  · next hr =>
    rcases hlast hr with hspacing | hclose
    · exact List.dropWhile_eq_nil_iff.mpr hspacing
    · -- A quoted item with nothing but spacing behind it would close the text.
      obtain ⟨cs, he, rfl⟩ := exists_doubled_of_quoted hq
      obtain ⟨spacing, -, hs⟩ := exists_spacing s
      refine absurd ⟨spacing ++ '\'' :: doubled cs, r, List.dropWhile_eq_nil_iff.mp hr, ?_⟩ hclose
      rw [hs, he]
      simp
  · rfl

section

variable {pad : List Char} (hpad : ∀ c ∈ pad, isBlank c = true)

include hpad

theorem quoted?_skipSpacing_append_blank {s : List Char} (h : quoted? (skipSpacing s) = none) :
    quoted? (skipSpacing (s ++ pad)) = none := by
  have hquote := quote_not_mem_blank hpad
  rw [skipSpacing_append_blank]
  split
  · have hrest : '\'' ∉ skipSpacing pad :=
      fun hc => hquote ((List.dropWhile_suffix _).subset hc)
    rw [← List.nil_append (skipSpacing pad), quoted?_append hrest]
    rfl
  · rw [quoted?_append hquote, h, Option.map_none]

theorem item_append_blank_of_quoted {s q r : List Char} (hq : quoted? (skipSpacing s) = some (q, r))
    (hlast : skipSpacing r = [] → (∀ c ∈ pad, isSpacing c = true) ∨ ¬Closes s) :
    item (s ++ pad) = (q, if skipSpacing r = [] then [] else skipSpacing r ++ pad) := by
  have hquote := quote_not_mem_blank hpad
  have hne : skipSpacing s ≠ [] := by
    intro hnil
    rw [hnil] at hq
    cases hq
  have hmore : quoted? (skipSpacing (s ++ pad)) = some (q, r ++ pad) := by
    rw [skipSpacing_append_blank, if_neg hne, quoted?_append hquote, hq]
    rfl
  rw [item_of_quoted hmore, skipSpacing_append_last hq hlast]

theorem item_append_blank_of_bare {s : List Char} (hq : quoted? (skipSpacing s) = none) :
    item (s ++ pad) = (trimChars (s.takeWhile (!isComma ·)),
      if s.dropWhile (!isComma ·) = [] then [] else s.dropWhile (!isComma ·) ++ pad) := by
  have hcomma := not_isComma_blank hpad
  rw [item_of_bare (quoted?_skipSpacing_append_blank hpad hq)]
  split
  · next hnil =>
    have hs : ∀ c ∈ s, (!isComma c) = true := List.dropWhile_eq_nil_iff.mp hnil
    have hall : ∀ c ∈ s ++ pad, (!isComma c) = true := by
      intro c hc
      exact (List.mem_append.mp hc).elim (hs c) (hcomma c)
    rw [List.takeWhile_eq_self_iff.mpr hall, List.dropWhile_eq_nil_iff.mpr hall,
      trimChars_append_blank hpad, List.takeWhile_eq_self_iff.mpr hs]
  · next hne =>
    have hstops : Stops (!isComma ·) (s.dropWhile (!isComma ·) ++ pad) := by
      intro c hc
      rw [List.head?_append_of_ne_nil _ hne] at hc
      have hfirst := List.head?_dropWhile_not (!isComma ·) s
      rwa [hc] at hfirst
    have hs : s ++ pad = s.takeWhile (!isComma ·) ++ (s.dropWhile (!isComma ·) ++ pad) := by
      rw [← List.append_assoc, List.takeWhile_append_dropWhile]
    have htake : ∀ c ∈ s.takeWhile (!isComma ·), (!isComma c) = true :=
      fun c hc => List.mem_takeWhile_imp (p := (!isComma ·)) hc
    rw [hs, hstops.takeWhile_append htake, hstops.dropWhile_append htake]

/-- Blank characters behind a text stay behind its first item, or belong to it where nothing
follows it. -/
theorem item_append_blank {s : List Char}
    (hlast : (item s).2 = [] → (∀ c ∈ pad, isSpacing c = true) ∨ ¬Closes s) :
    item (s ++ pad) = ((item s).1, if (item s).2 = [] then [] else (item s).2 ++ pad) := by
  cases hq : quoted? (skipSpacing s) with
  | some found =>
    rw [item_of_quoted hq] at hlast ⊢
    exact item_append_blank_of_quoted hpad hq hlast
  | none =>
    rw [item_of_bare hq]
    exact item_append_blank_of_bare hpad hq

theorem items?_append_blank {s : List Char}
    (hlast : (∀ c ∈ pad, isSpacing c = true) ∨ ¬Closes s) : items? (s ++ pad) = items? s := by
  fun_induction items? s with
  | case1 s hrest =>
    rw [items?_eq, item_append_blank hpad fun _ => hlast, if_pos hrest]
  | case2 s r hrest hlt ih =>
    have hne : (item s).2 ≠ [] := by
      rw [hrest]
      exact List.cons_ne_nil _ _
    have hr : r <:+ s := (List.suffix_cons ',' r).trans (hrest ▸ item_suffix s)
    have hmore := ih (hlast.imp_right fun hclose hr' => hclose (hr'.of_suffix hr))
    rw [items?_eq, item_append_blank hpad fun _ => hlast, if_neg hne, hrest, List.cons_append]
    exact (if_pos rfl).trans (by rw [hmore])
  | case3 s c r hrest hlt hcomma =>
    have hne : (item s).2 ≠ [] := by
      rw [hrest]
      exact List.cons_ne_nil _ _
    rw [items?_eq, item_append_blank hpad fun _ => hlast, if_neg hne, hrest, List.cons_append]
    exact if_neg hcomma

end

def cut (s : List Char) : List (List Char) :=
  (s.splitOn ',').map trimChars

theorem cut_append_comma (s r : List Char) : cut (s ++ ',' :: r) = cut s ++ cut r := by
  rw [cut, List.splitOn_append_cons_self, List.map_append, cut, cut]

theorem cut_singleton {s : List Char} (h : ',' ∉ s) : cut s = [trimChars s] := by
  rw [cut, List.splitOn_eq_singleton h, List.map_singleton]

theorem cut_blank_append {pad : List Char} (hpad : ∀ c ∈ pad, isBlank c = true) (s : List Char) :
    cut (pad ++ s) = cut s := by
  have hcomma := comma_not_mem_blank hpad
  by_cases hs : ',' ∈ s
  · obtain ⟨first, rest, rfl, hfirst⟩ := List.eq_append_cons_of_mem hs
    rw [← List.append_assoc, cut_append_comma, cut_append_comma, cut_singleton hfirst,
      cut_singleton (by simp [hcomma, hfirst]), trimChars_blank_append hpad]
  · rw [cut_singleton hs, cut_singleton (by simp [hcomma, hs]), trimChars_blank_append hpad]

theorem cut_append_blank {pad : List Char} (hpad : ∀ c ∈ pad, isBlank c = true) (s : List Char) :
    cut (s ++ pad) = cut s := by
  induction s using cut_induction ',' with
  | whole s hs =>
    have hcomma := comma_not_mem_blank hpad
    rw [cut_singleton hs, cut_singleton (by simp [hcomma, hs]), trimChars_append_blank hpad]
  | cut first rest _ ih =>
    rw [List.append_assoc, List.cons_append, cut_append_comma, cut_append_comma, ih]

/-- No comma stands between quotes, as far as the quotes before it tell. -/
def CommasUnquoted (s : List Char) : Prop :=
  ∀ first rest, s = first ++ ',' :: rest → Even (first.count '\'')

theorem even_count_doubled {cs first rest : List Char} {c : Char} (hc : c ≠ '\'')
    (h : doubled cs = first ++ c :: rest) : Even (first.count '\'') := by
  induction cs generalizing first with
  | nil => simp [doubled] at h
  | cons d cs ih =>
    by_cases hd : d = '\''
    · subst hd
      rw [doubled_cons_quote] at h
      rcases first with _ | ⟨d, _ | ⟨e, first⟩⟩
      · exact absurd (List.cons_eq_cons.mp h).1.symm hc
      · exact absurd (List.cons_eq_cons.mp (List.cons_eq_cons.mp h).2).1.symm hc
      · simp only [List.cons_append, List.cons.injEq] at h
        obtain ⟨rfl, rfl, hrest⟩ := h
        rw [List.count_cons_self, List.count_cons_self]
        rw [Nat.even_add_one, Nat.even_add_one, not_not]
        exact ih hrest
    · rw [doubled_cons hd] at h
      cases first with
      | nil => exact Nat.even_iff.mpr rfl
      | cons _ first =>
        simp only [List.cons_append, List.cons.injEq] at h
        obtain ⟨rfl, hrest⟩ := h
        rw [List.count_cons_of_ne hd]
        exact ih hrest

theorem comma_not_mem_of_quoted {before q r : List Char} (hbefore : ∀ c ∈ before, isBlank c = true)
    (h : CommasUnquoted (before ++ q ++ r)) (hq : IsQuoted q) : ',' ∉ q := by
  intro hmem
  obtain ⟨text, rfl⟩ := hq
  have hinside : ',' ∈ doubled text := by simpa using hmem
  obtain ⟨first, rest, hsplit, -⟩ := List.eq_append_cons_of_mem hinside
  have hcount : before.count '\'' = 0 := List.count_eq_zero.mpr (quote_not_mem_blank hbefore)
  have heven := h (before ++ '\'' :: first) (rest ++ '\'' :: r) (by simp [hsplit])
  rw [List.count_append, hcount, List.count_cons_self, Nat.zero_add, Nat.even_add_one] at heven
  exact heven (even_count_doubled (by decide) hsplit)

theorem item_of_commasUnquoted {s : List Char} (h : CommasUnquoted s) :
    ∃ front, s = front ++ (item s).2 ∧ ',' ∉ front ∧ (item s).1 = trimChars front := by
  obtain ⟨piece, hs, ⟨before, after, hbefore, hafter, hpiece⟩, hquoted⟩ := exists_framing s
  have hcomma : ',' ∉ (item s).1 := by
    intro hmem
    have hunquoted : CommasUnquoted (before ++ (item s).1 ++ (after ++ (item s).2)) := by
      rwa [← List.append_assoc, ← hpiece, ← hs]
    exact comma_not_mem_of_quoted hbefore hunquoted (hquoted hmem) hmem
  refine ⟨piece, hs, ?_, ?_⟩
  · rw [hpiece]
    simp [comma_not_mem_blank hbefore, comma_not_mem_blank hafter, hcomma]
  · rw [hpiece, trimChars_append_blank hafter, trimChars_blank_append hbefore, trimChars_item]

theorem CommasUnquoted.rest {s front r : List Char} (h : CommasUnquoted s)
    (hs : s = front ++ ',' :: r) : CommasUnquoted r := by
  intro first rest hr
  have hfront := h front r hs
  have hfirst := h (front ++ ',' :: first) rest (by rw [hs, hr]; simp)
  rw [List.count_append, List.count_cons_of_ne (by decide), Nat.even_add] at hfirst
  exact hfirst.mp hfront

theorem items?_eq_cut {s : List Char} (h : CommasUnquoted s) {found : List (List Char)}
    (hfound : items? s = some found) : found = cut s := by
  fun_induction items? s generalizing found with
  | case1 s hrest =>
    obtain ⟨front, hs, hcomma, hitem⟩ := item_of_commasUnquoted h
    cases hfound
    rw [hrest, List.append_nil] at hs
    rw [hitem, hs, cut_singleton hcomma]
  | case2 s r hrest hlt ih =>
    obtain ⟨front, hs, hcomma, hitem⟩ := item_of_commasUnquoted h
    rw [hrest] at hs
    obtain ⟨others, hothers, rfl⟩ := Option.map_eq_some_iff.mp hfound
    rw [ih (h.rest hs) hothers, hitem]
    conv_rhs => rw [hs, cut_append_comma, cut_singleton hcomma]
    rfl
  | case3 => cases hfound

theorem CommasUnquoted.pad {before s after : List Char} (h : CommasUnquoted s)
    (hbefore : ∀ c ∈ before, isBlank c = true) (hafter : ∀ c ∈ after, isBlank c = true) :
    CommasUnquoted (before ++ s ++ after) := by
  have hcount : before.count '\'' = 0 :=
    List.count_eq_zero.mpr (quote_not_mem_blank hbefore)
  intro first rest he
  obtain ⟨t, -, he⟩ := split_of_append (comma_not_mem_blank hafter) he
  obtain ⟨u, rfl, hs⟩ := split_of_prepend (comma_not_mem_blank hbefore) he
  rw [List.count_append, hcount, Nat.zero_add]
  exact h u t hs

theorem literals_of_commasUnquoted {s : String} (h : CommasUnquoted s.toList) :
    literals s = ((cut s.toList).filter (· ≠ [])).map String.ofList := by
  unfold literals
  cases hitems : items? s.toList with
  | none => rfl
  | some found =>
    rw [items?_eq_cut h hitems]
    rfl

/-- How blank characters around the text of a list leave its items as they are: they do not stand
next to a quote, other than spacing, or no quoted comma could be torn apart. -/
def KeepsItems (before s after : List Char) : Prop :=
  CommasUnquoted s ∨
    ((∀ c ∈ before, isSpacing c = true) ∨ ¬Opens s) ∧
      ((∀ c ∈ after, isSpacing c = true) ∨ ¬Closes s)

theorem literals_pad {before s after : String} (hbefore : blank before = true)
    (hafter : blank after = true) (h : KeepsItems before.toList s.toList after.toList) :
    literals (before ++ s ++ after) = literals s := by
  rw [blank, List.all_eq_true] at hbefore hafter
  have hchars : (before ++ s ++ after).toList = before.toList ++ s.toList ++ after.toList := by
    rw [String.toList_append, String.toList_append]
  have hcut : cut (before ++ s ++ after).toList = cut s.toList := by
    rw [hchars, cut_append_blank hafter, cut_blank_append hbefore]
  rcases h with h | ⟨hopens, hcloses⟩
  · have hpad : CommasUnquoted (before ++ s ++ after).toList := by
      rw [hchars]
      exact h.pad hbefore hafter
    rw [literals_of_commasUnquoted hpad, literals_of_commasUnquoted h, hcut]
  · have hitems : items? (before ++ s ++ after).toList = items? s.toList := by
      have hfirst : items? (before.toList ++ s.toList) = items? s.toList := by
        rw [items?_eq, items?_eq, item_blank_append hbefore hopens]
      have hlast := hcloses.imp_right fun hs hc => hs (closes_of_blank_append hbefore hc)
      rw [hchars, items?_append_blank hafter hlast, hfirst]
    unfold cut at hcut
    rw [literals, hitems, hcut, literals]

end ValueText
end EndpointPreview
