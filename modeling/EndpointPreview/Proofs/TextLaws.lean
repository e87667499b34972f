import Mathlib.Data.List.DropRight
import EndpointPreview.Identifier
import EndpointPreview.ValueText.Reference
/-!
Trimmed text, the names that may stand in it, where a run of its characters stops, and where it is
cut.
-/

namespace EndpointPreview

open Text

theorem trimChars_eq_rdropWhile (cs : List Char) :
    trimChars cs = (cs.dropWhile isBlank).rdropWhile isBlank := rfl

theorem trimChars_eq_nil {cs : List Char} : trimChars cs = [] ↔ ∀ c ∈ cs, isBlank c = true := by
  rw [trimChars_eq_rdropWhile, List.rdropWhile_eq_nil_iff]
  constructor
  · intro h c hc
    rw [← List.takeWhile_append_dropWhile (p := isBlank) (l := cs), List.mem_append] at hc
    rcases hc with hc | hc
    · exact List.mem_takeWhile_imp hc
    · exact h c hc
  · intro h c hc
    exact h c ((List.dropWhile_suffix _).subset hc)

theorem trimChars_trimChars (cs : List Char) : trimChars (trimChars cs) = trimChars cs := by
  -- The first character that is kept is that of the text without its leading blanks.
  have hstart : (trimChars cs).dropWhile isBlank = trimChars cs := by
    rw [List.dropWhile_eq_self_iff]
    intro hpos hblank
    have hpre : trimChars cs <+: cs.dropWhile isBlank := List.rdropWhile_prefix _ _
    have hne : 0 < (cs.dropWhile isBlank).length := hpos.trans_le hpre.length_le
    rw [hpre.getElem hpos] at hblank
    exact List.dropWhile_get_zero_not _ _ hne hblank
  rw [trimChars_eq_rdropWhile (trimChars cs), hstart, trimChars_eq_rdropWhile]
  exact List.rdropWhile_idempotent _ _

theorem trimChars_blank_append {pad : List Char} (hpad : ∀ c ∈ pad, isBlank c = true)
    (cs : List Char) : trimChars (pad ++ cs) = trimChars cs := by
  rw [trimChars, List.dropWhile_append_of_pos hpad, trimChars]

theorem trimChars_append_blank {pad : List Char} (hpad : ∀ c ∈ pad, isBlank c = true)
    (cs : List Char) : trimChars (cs ++ pad) = trimChars cs := by
  have hrev : ∀ c ∈ pad.reverse, isBlank c = true := fun c hc => hpad c (List.mem_reverse.mp hc)
  rw [trimChars, trimChars, List.dropWhile_append]
  split
  · next hnil =>
    rw [List.isEmpty_iff] at hnil
    rw [hnil, List.dropWhile_eq_nil_iff.mpr hpad]
  · rw [List.reverse_append, List.dropWhile_append_of_pos hrev]

theorem exists_trimmed (cs : List Char) :
    ∃ before after, (∀ c ∈ before, isBlank c = true) ∧ (∀ c ∈ after, isBlank c = true) ∧
      cs = before ++ trimChars cs ++ after := by
  refine ⟨cs.takeWhile isBlank, (cs.dropWhile isBlank).rtakeWhile isBlank, ?_, ?_, ?_⟩
  · intro c hc
    exact List.mem_takeWhile_imp hc
  · intro c hc
    exact List.mem_rtakeWhile_imp hc
  · rw [trimChars_eq_rdropWhile, List.append_assoc, List.rdropWhile_append_rtakeWhile,
      List.takeWhile_append_dropWhile]

theorem trimChars_eq_self {cs : List Char} (hhead : ∀ c ∈ cs.head?, isBlank c = false)
    (hlast : ∀ c ∈ cs.getLast?, isBlank c = false) : trimChars cs = cs := by
  have hdrop : cs.dropWhile isBlank = cs := by
    rw [List.dropWhile_eq_self_iff]
    intro hpos
    rw [hhead _ (by rw [List.head?_eq_getElem?, List.getElem?_eq_getElem hpos]; rfl)]
    exact Bool.false_ne_true
  rw [trimChars_eq_rdropWhile, hdrop, List.rdropWhile_eq_self_iff]
  intro hne
  rw [hlast _ (List.getLast?_eq_some_getLast hne)]
  exact Bool.false_ne_true

@[simp] theorem toList_trim (s : String) : (trim s).toList = trimChars s.toList := by
  simp [trim]

@[simp] theorem trim_trim (s : String) : trim (trim s) = trim s := by
  rw [trim, toList_trim, trimChars_trimChars, trim]

theorem blank_iff (s : String) : blank s = true ↔ trim s = "" := by
  rw [← String.toList_inj, toList_trim, blank, List.all_eq_true]
  exact trimChars_eq_nil.symm

theorem filled_eq_some {s t : String} : filled s = some t ↔ blank s = false ∧ trim s = t := by
  unfold filled
  split_ifs with h <;> simp [h]

theorem filled_eq_none {s : String} : filled s = none ↔ blank s = true := by
  unfold filled
  split_ifs with h <;> simp [h]

theorem blank_eq_false_of_isName {s : String} (h : isName (trim s).toList = true) :
    blank s = false := by
  rw [← Bool.not_eq_true, blank_iff]
  intro he
  rw [he] at h
  exact absurd h (by decide)

theorem name?_isName {s name rest : List Char} (h : ValueText.name? s = some (name, rest)) :
    isName name = true := by
  cases s with
  | nil => cases h
  | cons c s =>
    simp only [ValueText.name?] at h
    split_ifs at h with hc
    cases h
    simp only [isName, hc, Bool.true_and, List.all_eq_true]
    intro d hd
    exact List.mem_takeWhile_imp hd

theorem braced?_isName {s name rest : List Char} (h : ValueText.braced? s = some (name, rest)) :
    isName name = true := by
  obtain ⟨⟨found, r⟩, hname, h⟩ := Option.bind_eq_some_iff.mp h
  dsimp only at h
  split at h
  · cases h
    exact name?_isName hname
  · cases h

theorem reference?_isName {s name rest : List Char}
    (h : ValueText.reference? s = some (name, rest)) : isName name = true := by
  unfold ValueText.reference? at h
  split at h
  · exact braced?_isName h
  · exact name?_isName h
  · exact name?_isName h

theorem parameter?_isIdentifier {s name : String} (h : ValueText.parameter? s = some name) :
    isIdentifier name = true := by
  obtain ⟨⟨found, r⟩, hfound, h⟩ := Option.bind_eq_some_iff.mp h
  dsimp only at h
  split_ifs at h
  cases h
  simpa only [isIdentifier, String.toList_ofList] using reference?_isName hfound

theorem split_of_prepend {mark : Char} {pad s first rest : List Char} (hpad : mark ∉ pad)
    (h : pad ++ s = first ++ mark :: rest) : ∃ t, first = pad ++ t ∧ s = t ++ mark :: rest := by
  rcases List.append_eq_append_iff.mp h with ⟨t, rfl, hs⟩ | ⟨t, rfl, ht⟩
  · exact ⟨t, rfl, hs⟩
  · cases t with
    | nil => exact ⟨[], by simp, ht.symm⟩
    | cons c t =>
      obtain ⟨rfl, -⟩ := List.cons_eq_cons.mp ht
      exact absurd (List.mem_append_right first List.mem_cons_self) hpad

theorem split_of_append {mark : Char} {pad s first rest : List Char} (hpad : mark ∉ pad)
    (h : s ++ pad = first ++ mark :: rest) : ∃ t, rest = t ++ pad ∧ s = first ++ mark :: t := by
  rcases List.append_eq_append_iff.mp h with ⟨t, -, rfl⟩ | ⟨t, rfl, ht⟩
  · exact absurd (List.mem_append_right t List.mem_cons_self) hpad
  · cases t with
    | nil =>
      rw [List.nil_append] at ht
      exact absurd (ht ▸ List.mem_cons_self) hpad
    | cons c t =>
      obtain ⟨rfl, rfl⟩ := List.cons_eq_cons.mp ht
      exact ⟨t, rfl, rfl⟩

section

variable {α : Type} {p : α → Bool} {s s' r r' : List α}

def Stops (p : α → Bool) (r : List α) : Prop :=
  ∀ a ∈ r.head?, p a = false

theorem stops_nil (p : α → Bool) : Stops p [] :=
  nofun

theorem stops_cons {a : α} (h : p a = false) (r : List α) : Stops p (a :: r) := by
  rintro b ⟨⟩
  exact h

theorem stops_of_forall (h : ∀ a ∈ r, p a = false) : Stops p r :=
  fun a ha => h a (List.mem_of_mem_head? ha)

theorem Stops.takeWhile_append (hr : Stops p r) (hs : ∀ a ∈ s, p a = true) :
    (s ++ r).takeWhile p = s := by
  rw [List.takeWhile_append_of_pos hs]
  cases r with
  | nil => exact List.append_nil s
  | cons a r => rw [List.takeWhile_cons_of_neg (by simp [hr a rfl]), List.append_nil]

theorem Stops.dropWhile_append (hr : Stops p r) (hs : ∀ a ∈ s, p a = true) :
    (s ++ r).dropWhile p = r := by
  rw [List.dropWhile_append_of_pos hs]
  cases r with
  | nil => rfl
  | cons a r => exact List.dropWhile_cons_of_neg (by simp [hr a rfl])

theorem Stops.ne_append (hr : Stops p r) (hne : s ≠ []) (hs : ∀ a ∈ s, p a = true) :
    r ≠ s ++ r' := by
  obtain ⟨a, s, rfl⟩ := List.exists_cons_of_ne_nil hne
  rintro rfl
  exact absurd (hs a List.mem_cons_self) (by simp [hr a rfl])

theorem append_inj_of_stops (hs : ∀ a ∈ s, p a = true) (hs' : ∀ a ∈ s', p a = true)
    (hr : Stops p r) (hr' : Stops p r') (h : s ++ r = s' ++ r') : s = s' ∧ r = r' := by
  constructor
  · rw [← hr.takeWhile_append hs, h, hr'.takeWhile_append hs']
  · rw [← hr.dropWhile_append hs, h, hr'.dropWhile_append hs']

end

/-- Induction along the pieces of a text that is cut at a separator. -/
@[elab_as_elim]
theorem cut_induction (sep : Char) {P : List Char → Prop} (whole : ∀ s, sep ∉ s → P s)
    (cut : ∀ first rest, sep ∉ first → P rest → P (first ++ sep :: rest)) (s : List Char) : P s := by
  by_cases hs : sep ∈ s
  · obtain ⟨first, rest, rfl, hfirst⟩ := List.eq_append_cons_of_mem hs
    exact cut first rest hfirst (cut_induction sep whole cut rest)
  · exact whole s hs
termination_by s.length

end EndpointPreview
