import EndpointPreview.Proofs.PaddedLists
import EndpointPreview.Query.Sql
/-!
The grammar of references. A whole text refers to a parameter if it is a name, with a colon in front
or in double braces or neither, and with spacing around; the reader accepts these texts and no
others.
-/

namespace EndpointPreview

open Text

namespace ValueText

inductive Names (name : List Char) : List Char → Prop
  | bare : Names name name
  | colon : Names name (':' :: name)
  | braced {before after : List Char} (hbefore : ∀ c ∈ before, isSpacing c = true)
      (hafter : ∀ c ∈ after, isSpacing c = true) :
      Names name ('{' :: '{' :: (before ++ name ++ after ++ ['}', '}']))

structure RefersTo (s name : String) : Prop where
  safe : isIdentifier name = true
  written : ∃ before form after, (∀ c ∈ before, isSpacing c = true) ∧
    (∀ c ∈ after, isSpacing c = true) ∧ Names name.toList form ∧ s.toList = before ++ form ++ after

theorem not_isSpacing_of_isNameRest {c : Char} (h : isNameRest c = true) : isSpacing c = false := by
  by_contra hne
  have hspacing : isSpacing c = true := by simpa using hne
  simp only [isSpacing, Bool.or_eq_true, beq_iff_eq] at hspacing
  rcases hspacing with ((rfl | rfl) | rfl) | rfl <;> exact absurd h (by decide)

theorem not_isNameRest_of_isSpacing {c : Char} (h : isSpacing c = true) : isNameRest c = false := by
  by_contra hne
  rw [not_isSpacing_of_isNameRest (by simpa using hne)] at h
  cases h

theorem skipSpacing_eq_nil {s : List Char} : skipSpacing s = [] ↔ ∀ c ∈ s, isSpacing c = true :=
  List.dropWhile_eq_nil_iff

theorem skipSpacing_of_head {s : List Char} (h : Stops isSpacing s) : skipSpacing s = s :=
  h.dropWhile_append (s := []) nofun

theorem exists_start {name : List Char} (h : isName name = true) (r : List Char) :
    ∃ c cs, name ++ r = c :: cs ∧ isNameStart c = true := by
  cases name with
  | nil => cases h
  | cons c name =>
    simp only [isName, Bool.and_eq_true] at h
    exact ⟨c, name ++ r, rfl, h.1⟩

theorem skipSpacing_name {name : List Char} (h : isName name = true) (r : List Char) :
    skipSpacing (name ++ r) = name ++ r := by
  obtain ⟨c, cs, he, hc⟩ := exists_start h r
  rw [he]
  apply skipSpacing_of_head
  exact stops_cons (not_isSpacing_of_isNameRest (isNameRest_of_isNameStart hc)) cs

theorem stops_spacing_append {spacing r : List Char} (h : ∀ c ∈ spacing, isSpacing c = true)
    (hr : Stops isNameRest r) : Stops isNameRest (spacing ++ r) := by
  cases spacing with
  | nil => exact hr
  | cons c spacing =>
    exact stops_cons (not_isNameRest_of_isSpacing (h c List.mem_cons_self)) (spacing ++ r)

theorem name?_eq_some {s name r : List Char} (h : name? s = some (name, r)) : s = name ++ r := by
  cases s with
  | nil => cases h
  | cons c s =>
    simp only [name?] at h
    split_ifs at h
    cases h
    rw [List.cons_append, List.takeWhile_append_dropWhile]

theorem name?_append {name r : List Char} (h : isName name = true) (hr : Stops isNameRest r) :
    name? (name ++ r) = some (name, r) := by
  cases name with
  | nil => cases h
  | cons c name =>
    simp only [isName, Bool.and_eq_true, List.all_eq_true] at h
    rw [List.cons_append, name?, if_pos h.1, hr.takeWhile_append h.2, hr.dropWhile_append h.2]

theorem braced?_eq_some {s name r : List Char} (h : braced? s = some (name, r)) :
    ∃ before after, (∀ c ∈ before, isSpacing c = true) ∧ (∀ c ∈ after, isSpacing c = true) ∧
      s = before ++ name ++ after ++ '}' :: '}' :: r := by
  obtain ⟨⟨found, tail⟩, hname, h⟩ := Option.bind_eq_some_iff.mp h
  have hs := name?_eq_some hname
  dsimp only at h
  split at h
  · next rest htail =>
    cases h
    obtain ⟨before, hbefore, hsplit⟩ := exists_spacing s
    obtain ⟨after, hafter, hsplit'⟩ := exists_spacing tail
    refine ⟨before, after, hbefore, hafter, ?_⟩
    rw [hsplit, hs, hsplit', htail, List.append_assoc, List.append_assoc]
  · cases h

theorem braced?_append {before name after : List Char} (hbefore : ∀ c ∈ before, isSpacing c = true)
    (hname : isName name = true) (hafter : ∀ c ∈ after, isSpacing c = true) (r : List Char) :
    braced? (before ++ name ++ after ++ '}' :: '}' :: r) = some (name, r) := by
  have hclose : Stops isNameRest (after ++ '}' :: '}' :: r) :=
    stops_spacing_append hafter (stops_cons rfl _)
  have hread : name? (skipSpacing (before ++ name ++ after ++ '}' :: '}' :: r)) =
      some (name, after ++ '}' :: '}' :: r) := by
    rw [List.append_assoc, List.append_assoc, skipSpacing_append hbefore, skipSpacing_name hname,
      name?_append hname hclose]
  have htail : skipSpacing (after ++ '}' :: '}' :: r) = '}' :: '}' :: r := by
    rw [skipSpacing_append hafter, skipSpacing_of_head (stops_cons rfl _)]
  simp only [braced?, hread, htail, bind, Option.bind]

theorem reference?_eq_some {s name r : List Char} (h : reference? s = some (name, r)) :
    ∃ form, Names name form ∧ s = form ++ r := by
  unfold reference? at h
  split at h
  · obtain ⟨before, after, hbefore, hafter, rfl⟩ := braced?_eq_some h
    exact ⟨_, .braced hbefore hafter, by simp⟩
  · rw [name?_eq_some h]
    exact ⟨_, .colon, rfl⟩
  · rw [name?_eq_some h]
    exact ⟨_, .bare, rfl⟩

theorem reference?_append {name form r : List Char} (hname : isName name = true)
    (h : Names name form) (hr : Stops isNameRest r) : reference? (form ++ r) = some (name, r) := by
  cases h with
  | bare =>
    -- A name begins with neither a brace nor a colon.
    obtain ⟨c, cs, he, hc⟩ := exists_start hname r
    have hread := name?_append hname hr
    rw [he] at hread ⊢
    unfold reference?
    split
    · next heq =>
      cases heq
      exact absurd hc (by decide)
    · next heq =>
      cases heq
      exact absurd hc (by decide)
    · exact hread
  | colon => exact name?_append hname hr
  | @braced before after hbefore hafter =>
    have hread := braced?_append hbefore hname hafter r
    simpa [reference?] using hread

theorem Names.skipSpacing_append {name form : List Char} (hname : isName name = true)
    (h : Names name form) (r : List Char) : skipSpacing (form ++ r) = form ++ r := by
  cases h with
  | bare => exact skipSpacing_name hname r
  | colon => exact skipSpacing_of_head (stops_cons rfl _)
  | braced => exact skipSpacing_of_head (stops_cons rfl _)

theorem refersTo_of_parameter? {s name : String} (h : parameter? s = some name) :
    RefersTo s name := by
  refine ⟨parameter?_isIdentifier h, ?_⟩
  obtain ⟨⟨found, r⟩, hfound, h⟩ := Option.bind_eq_some_iff.mp h
  dsimp only at h
  split_ifs at h with hend
  cases h
  obtain ⟨before, hbefore, hsplit⟩ := exists_spacing s.toList
  obtain ⟨form, hform, he⟩ := reference?_eq_some hfound
  refine ⟨before, form, r, hbefore, skipSpacing_eq_nil.mp hend, ?_, ?_⟩
  · rwa [String.toList_ofList]
  · rw [List.append_assoc, ← he]
    exact hsplit

theorem parameter?_of_refersTo {s name : String} (h : RefersTo s name) :
    parameter? s = some name := by
  obtain ⟨before, form, after, hbefore, hafter, hform, hs⟩ := h.written
  have hstart : skipSpacing s.toList = form ++ after := by
    rw [hs, List.append_assoc, skipSpacing_append hbefore, hform.skipSpacing_append h.safe]
  have hstop : Stops isNameRest after := by
    simpa using stops_spacing_append hafter (stops_nil isNameRest)
  have hread := reference?_append h.safe hform hstop
  simp only [parameter?, hstart, hread, bind, Option.bind, skipSpacing_eq_nil.mpr hafter,
    ↓reduceIte, String.ofList_toList]

end ValueText

/-- The reader of parameter references accepts its grammar, with the one name that is written, and
so the placeholder of a parameter. -/
theorem parameter_reference_grammar :
    (∀ s name : String, ValueText.parameter? s = some name ↔ ValueText.RefersTo s name) ∧
    ∀ name : String, isIdentifier name = true →
      ValueText.parameter? (Value.param name).sql = some name := by
  have hread : ∀ s name : String, ValueText.parameter? s = some name ↔ ValueText.RefersTo s name :=
    fun _ _ => ⟨ValueText.refersTo_of_parameter?, ValueText.parameter?_of_refersTo⟩
  refine ⟨hread, ?_⟩
  intro name hname
  rw [hread]
  have hform : ValueText.Names name.toList
      ('{' :: '{' :: ([] ++ name.toList ++ [] ++ ['}', '}'])) := .braced nofun nofun
  refine ⟨hname, [], _, [], nofun, nofun, hform, ?_⟩
  simp [Value.sql]

end EndpointPreview
