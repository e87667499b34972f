import Mathlib.Data.List.DropRight
import EndpointPreview.Json.Printer
import EndpointPreview.Text.Blank
/-!
The texts of a JSON value. Spacing may stand before every mark, and a text of a value is followed by
a rest, with which a number must not run together. Both printers write such texts.
-/

namespace EndpointPreview.Json

open Text (isSpacing)

/-- After spacing a text goes on with a character and a rest. -/
def Marks (c : Char) (s r : List Char) : Prop :=
  s.dropWhile isSpacing = c :: r

def SpellsText (t : String) (s r : List Char) : Prop :=
  Marks '"' s (t.toList.flatMap escaped ++ '"' :: r)

def EndsNumber (r : List Char) : Prop :=
  ∀ c ∈ r.head?, c.isDigit = false ∧ c ∉ ['.', 'e', 'E']

def SpellsNumber (n : Number) (s r : List Char) : Prop :=
  s.dropWhile isSpacing = numberChars n ++ r ∧ EndsNumber r

mutual

inductive Spells : Json → List Char → List Char → Prop
  | null {s r} (h : Marks 'n' s ('u' :: 'l' :: 'l' :: r)) : Spells .null s r
  | yes {s r} (h : Marks 't' s ('r' :: 'u' :: 'e' :: r)) : Spells (.bool true) s r
  | no {s r} (h : Marks 'f' s ('a' :: 'l' :: 's' :: 'e' :: r)) : Spells (.bool false) s r
  | number {n s r} (h : SpellsNumber n s r) : Spells (.number n) s r
  | text {t s r} (h : SpellsText t s r) : Spells (.text t) s r
  | emptyList {s s₁ r} (hopen : Marks '[' s s₁) (hclose : Marks ']' s₁ r) : Spells (.list []) s r
  | list {item items s s₁ s₂ r} (hopen : Marks '[' s s₁) (hitem : Spells item s₁ s₂)
      (hitems : SpellsItems items s₂ r) : Spells (.list (item :: items)) s r
  | emptyObject {s s₁ r} (hopen : Marks '\x7b' s s₁) (hclose : Marks '\x7d' s₁ r) :
      Spells (.object []) s r
  | object {key value members s s₁ s₂ s₃ s₄ r} (hopen : Marks '\x7b' s s₁)
      (hkey : SpellsText key s₁ s₂) (hcolon : Marks ':' s₂ s₃) (hvalue : Spells value s₃ s₄)
      (hmembers : SpellsMembers members s₄ r) : Spells (.object ((key, value) :: members)) s r

inductive SpellsItems : List Json → List Char → List Char → Prop
  | nil {s r} (hclose : Marks ']' s r) : SpellsItems [] s r
  | cons {item items s s₁ s₂ r} (hcomma : Marks ',' s s₁) (hitem : Spells item s₁ s₂)
      (hitems : SpellsItems items s₂ r) : SpellsItems (item :: items) s r

inductive SpellsMembers : List (String × Json) → List Char → List Char → Prop
  | nil {s r} (hclose : Marks '\x7d' s r) : SpellsMembers [] s r
  | cons {key value members s s₁ s₂ s₃ s₄ r} (hcomma : Marks ',' s s₁)
      (hkey : SpellsText key s₁ s₂) (hcolon : Marks ':' s₂ s₃) (hvalue : Spells value s₃ s₄)
      (hmembers : SpellsMembers members s₄ r) : SpellsMembers ((key, value) :: members) s r

end

theorem marks_cons {c : Char} (h : isSpacing c = false) (r : List Char) : Marks c (c :: r) r :=
  List.dropWhile_cons_of_neg (by rw [h]; exact Bool.false_ne_true)

theorem dropWhile_eq_of_marks {c : Char} {s r : List Char} (h : Marks c s r) :
    s.dropWhile isSpacing = (c :: r).dropWhile isSpacing := by
  rw [← (h : s.dropWhile isSpacing = c :: r), List.dropWhile_idempotent]

theorem endsNumber_cons {c : Char} (h : c.isDigit = false ∧ c ∉ ['.', 'e', 'E']) (r : List Char) :
    EndsNumber (c :: r) := by
  rintro d ⟨⟩
  exact h

/-- Only what follows the spacing of a text decides what it spells. -/
theorem Spells.of_dropWhile_eq {j : Json} {s s' r : List Char}
    (hs : s.dropWhile isSpacing = s'.dropWhile isSpacing) (h : Spells j s r) : Spells j s' r := by
  have hmarks : ∀ {c t}, Marks c s t → Marks c s' t := fun h => hs.symm.trans h
  cases h with
  | null h => exact .null (hmarks h)
  | yes h => exact .yes (hmarks h)
  | no h => exact .no (hmarks h)
  | number h => exact .number ⟨hs.symm.trans h.1, h.2⟩
  | text h => exact .text (hmarks h)
  | emptyList hopen hclose => exact .emptyList (hmarks hopen) hclose
  | list hopen hitem hitems => exact .list (hmarks hopen) hitem hitems
  | emptyObject hopen hclose => exact .emptyObject (hmarks hopen) hclose
  | object hopen hkey hcolon hvalue hmembers =>
    exact .object (hmarks hopen) hkey hcolon hvalue hmembers

section

variable {gap : List Char} (hgap : ∀ c ∈ gap, isSpacing c = true)

include hgap

theorem Marks.after {c : Char} {s r : List Char} (h : Marks c s r) : Marks c (gap ++ s) r := by
  rwa [Marks, List.dropWhile_append_of_pos hgap]

theorem SpellsText.after {t : String} {s r : List Char} (h : SpellsText t s r) :
    SpellsText t (gap ++ s) r :=
  Marks.after hgap h

theorem Spells.after {j : Json} {s r : List Char} (h : Spells j s r) : Spells j (gap ++ s) r :=
  h.of_dropWhile_eq (List.dropWhile_append_of_pos hgap).symm

end

def isNumberChar (c : Char) : Bool :=
  c.isDigit || c ∈ ['-', '+', '.', 'e']

theorem isNumberChar_of_toDigits {n : Nat} {c : Char} (h : c ∈ Nat.toDigits 10 n) :
    isNumberChar c = true := by
  rw [isNumberChar, Nat.isDigit_of_mem_toDigits (by decide) (by decide) h, Bool.true_or]

theorem isNumberChar_of_place {digits : List Char} {point : Int} {c : Char}
    (hdigits : ∀ d ∈ digits, isNumberChar d = true) (h : c ∈ Binary64.place digits point) :
    isNumberChar c = true := by
  have hzero : ∀ n, c ∈ List.replicate n '0' → isNumberChar c = true := by
    intro n hc
    rw [List.eq_of_mem_replicate hc]
    decide
  have hdrop : ∀ n, c ∈ digits.drop n → isNumberChar c = true :=
    fun n hc => hdigits c (List.mem_of_mem_drop hc)
  have htake : ∀ n, c ∈ digits.take n → isNumberChar c = true :=
    fun n hc => hdigits c (List.mem_of_mem_take hc)
  unfold Binary64.place at h
  dsimp only at h
  split at h
  · simp only [List.mem_append, List.mem_cons] at h
    rcases h with (h | h) | rfl | h
    · exact htake _ h
    · exact hzero _ h
    · decide
    · split at h
      · rw [List.mem_singleton.mp h]
        decide
      · exact hdrop _ h
  · split at h
    · simp only [List.mem_append, List.mem_cons, List.not_mem_nil, or_false] at h
      rcases h with ((rfl | rfl) | h) | h
      · decide
      · decide
      · exact hzero _ h
      · exact hdigits c h
    · simp only [List.mem_append, List.mem_cons, Binary64.exponentText] at h
      rcases h with (h | h) | rfl | h | h
      · exact htake _ h
      · split at h
        · cases h
        · rcases List.mem_cons.mp h with rfl | h
          · decide
          · exact hdrop _ h
      · decide
      · split at h <;> rw [h] <;> decide
      · exact isNumberChar_of_toDigits h

theorem isNumberChar_of_mem {n : Number} {c : Char} (h : c ∈ numberChars n) :
    isNumberChar c = true := by
  cases n with
  | integer n =>
    change c ∈ integerChars n at h
    unfold integerChars at h
    split at h
    · rcases List.mem_cons.mp h with rfl | h
      · decide
      · exact isNumberChar_of_toDigits h
    · exact isNumberChar_of_toDigits h
  | real x =>
    have hsign : ∀ c ∈ (if x.negative then ['-'] else []), isNumberChar c = true :=
      List.all_eq_true.mp (by split <;> decide)
    have hzero : ∀ c ∈ ['0', '.', '0'], isNumberChar c = true := List.all_eq_true.mp (by decide)
    change c ∈ x.chars at h
    unfold Binary64.chars at h
    dsimp only at h
    split at h
    · rcases List.mem_append.mp h with h | h
      · exact hsign c h
      · exact hzero c h
    · rcases List.mem_append.mp h with h | h
      · exact hsign c h
      · refine isNumberChar_of_place ?_ h
        intro d hd
        have hmem := (List.dropWhile_suffix _).subset (List.mem_reverse.mp hd)
        exact isNumberChar_of_toDigits (List.mem_reverse.mp hmem)

theorem place_ne_nil (digits : List Char) (point : Int) : Binary64.place digits point ≠ [] := by
  unfold Binary64.place
  dsimp only
  split
  · simp
  · split <;> simp

theorem numberChars_ne_nil (n : Number) : numberChars n ≠ [] := by
  cases n with
  | integer n =>
    change integerChars n ≠ []
    unfold integerChars
    split
    · exact List.cons_ne_nil _ _
    · exact Nat.toDigits_ne_nil
  | real x =>
    change x.chars ≠ []
    unfold Binary64.chars
    dsimp only
    split
    · exact List.append_ne_nil_of_right_ne_nil _ (List.cons_ne_nil _ _)
    · exact List.append_ne_nil_of_right_ne_nil _ (place_ne_nil _ _)

theorem Spells.exists_head {j : Json} {s r : List Char} (h : Spells j s r) :
    ∃ c t, Marks c s t ∧ c ≠ ']' := by
  cases h with
  | number h =>
    obtain ⟨c, cs, hc⟩ := List.exists_cons_of_ne_nil (numberChars_ne_nil ‹_›)
    refine ⟨c, cs ++ r, by rw [Marks, h.1, hc, List.cons_append], ?_⟩
    rintro rfl
    have hnumber := isNumberChar_of_mem (n := ‹_›) (c := ']') (by rw [hc]; exact List.mem_cons_self)
    exact absurd hnumber (by decide)
  | null h => exact ⟨_, _, h, by decide⟩
  | yes h => exact ⟨_, _, h, by decide⟩
  | no h => exact ⟨_, _, h, by decide⟩
  | text h => exact ⟨_, _, h, by decide⟩
  | emptyList h _ => exact ⟨_, _, h, by decide⟩
  | list h _ _ => exact ⟨_, _, h, by decide⟩
  | emptyObject h _ => exact ⟨_, _, h, by decide⟩
  | object h _ _ _ _ => exact ⟨_, _, h, by decide⟩

theorem spells_numberChars (n : Number) {r : List Char} (h : EndsNumber r) :
    Spells (.number n) (numberChars n ++ r) r := by
  refine .number ⟨?_, h⟩
  obtain ⟨c, cs, hc⟩ := List.exists_cons_of_ne_nil (numberChars_ne_nil n)
  have hnumber : isNumberChar c = true :=
    isNumberChar_of_mem (n := n) (by rw [hc]; exact List.mem_cons_self)
  rw [hc, List.cons_append]
  apply List.dropWhile_cons_of_neg
  intro hspacing
  simp only [isSpacing, Bool.or_eq_true, beq_iff_eq] at hspacing
  rcases hspacing with ((rfl | rfl) | rfl) | rfl <;> exact absurd hnumber (by decide)

theorem spellsText_quoted (t : String) (r : List Char) : SpellsText t (quoted t ++ r) r := by
  rw [quoted, List.cons_append, List.append_assoc]
  exact marks_cons (by decide) _

theorem endsNumber_itemChars (items : List Json) (r : List Char) :
    EndsNumber (itemChars items ++ r) := by
  cases items with
  | nil => exact endsNumber_cons (by decide) _
  | cons item items => exact endsNumber_cons (by decide) _

theorem endsNumber_memberChars (members : List (String × Json)) (r : List Char) :
    EndsNumber (memberChars members ++ r) := by
  cases members with
  | nil => exact endsNumber_cons (by decide) _
  | cons member members => exact endsNumber_cons (by decide) _

mutual

theorem spells_chars : ∀ (j : Json) {r : List Char}, EndsNumber r → Spells j (j.chars ++ r) r
  | .null, _, _ => .null (marks_cons (by decide) _)
  | .bool true, _, _ => .yes (marks_cons (by decide) _)
  | .bool false, _, _ => .no (marks_cons (by decide) _)
  | .number n, _, h => spells_numberChars n h
  | .text t, r, _ => .text (spellsText_quoted t r)
  | .list [], _, _ => .emptyList (marks_cons (by decide) _) (marks_cons (by decide) _)
  | .list (item :: items), r, _ => by
    have hitem := spells_chars item (endsNumber_itemChars items r)
    rw [chars, List.cons_append, List.append_assoc]
    exact .list (marks_cons (by decide) _) hitem (spells_itemChars items r)
  | .object [], _, _ => .emptyObject (marks_cons (by decide) _) (marks_cons (by decide) _)
  | .object ((key, value) :: members), r, _ => by
    have hvalue := spells_chars value (endsNumber_memberChars members r)
    rw [chars, List.cons_append, List.append_assoc, List.cons_append, List.append_assoc]
    exact .object (marks_cons (by decide) _) (spellsText_quoted key _) (marks_cons (by decide) _)
      hvalue (spells_memberChars members r)

theorem spells_itemChars : ∀ (items : List Json) (r : List Char),
    SpellsItems items (itemChars items ++ r) r
  | [], _ => .nil (marks_cons (by decide) _)
  | item :: items, r => by
    have hitem := spells_chars item (endsNumber_itemChars items r)
    rw [itemChars, List.cons_append, List.append_assoc]
    exact .cons (marks_cons (by decide) _) hitem (spells_itemChars items r)

theorem spells_memberChars : ∀ (members : List (String × Json)) (r : List Char),
    SpellsMembers members (memberChars members ++ r) r
  | [], _ => .nil (marks_cons (by decide) _)
  | (key, value) :: members, r => by
    have hvalue := spells_chars value (endsNumber_memberChars members r)
    rw [memberChars, List.cons_append, List.append_assoc, List.cons_append, List.append_assoc]
    exact .cons (marks_cons (by decide) _) (spellsText_quoted key _) (marks_cons (by decide) _)
      hvalue (spells_memberChars members r)

end

theorem isSpacing_space : ∀ c ∈ [' '], isSpacing c = true :=
  List.forall_mem_singleton.mpr (by decide)

theorem isSpacing_newline {level : Nat} {c : Char} (h : c ∈ newline level) :
    isSpacing c = true := by
  rcases List.mem_cons.mp h with rfl | h
  · decide
  · rw [List.eq_of_mem_replicate h]
    decide

theorem endsNumber_laidOutItems (level : Nat) (items : List Json) (r : List Char) :
    EndsNumber (laidOutItems level items ++ r) := by
  cases items with
  | nil => exact endsNumber_cons (by decide) _
  | cons item items => exact endsNumber_cons (by decide) _

theorem endsNumber_laidOutMembers (level : Nat) (members : List (String × Json)) (r : List Char) :
    EndsNumber (laidOutMembers level members ++ r) := by
  cases members with
  | nil => exact endsNumber_cons (by decide) _
  | cons member members => exact endsNumber_cons (by decide) _

mutual

theorem spells_laidOut (level : Nat) : ∀ (j : Json) {r : List Char}, EndsNumber r →
    Spells j (j.laidOut level ++ r) r
  | .null, _, _ => .null (marks_cons (by decide) _)
  | .bool true, _, _ => .yes (marks_cons (by decide) _)
  | .bool false, _, _ => .no (marks_cons (by decide) _)
  | .number n, _, h => spells_numberChars n h
  | .text t, r, _ => .text (spellsText_quoted t r)
  | .list [], _, _ => .emptyList (marks_cons (by decide) _) (marks_cons (by decide) _)
  | .list (item :: items), r, _ => by
    have hitem := spells_laidOut (level + 1) item (endsNumber_laidOutItems level items r)
    rw [laidOut, List.cons_append, List.append_assoc, List.append_assoc]
    exact .list (marks_cons (by decide) _) (hitem.after fun _ => isSpacing_newline)
      (spells_laidOutItems level items r)
  | .object [], _, _ => .emptyObject (marks_cons (by decide) _) (marks_cons (by decide) _)
  | .object ((key, value) :: members), r, _ => by
    have hvalue := spells_laidOut (level + 1) value (endsNumber_laidOutMembers level members r)
    have hspaced : Spells value (' ' :: (value.laidOut (level + 1) ++ (laidOutMembers level members ++ r)))
        (laidOutMembers level members ++ r) := hvalue.after isSpacing_space
    simp only [laidOut, List.cons_append, List.append_assoc, List.nil_append]
    exact .object (marks_cons (by decide) _)
      ((spellsText_quoted key _).after fun _ => isSpacing_newline) (marks_cons (by decide) _)
      hspaced (spells_laidOutMembers level members r)

theorem spells_laidOutItems (level : Nat) : ∀ (items : List Json) (r : List Char),
    SpellsItems items (laidOutItems level items ++ r) r
  | [], r => by
    rw [laidOutItems, List.append_assoc]
    exact .nil ((marks_cons (by decide) r).after fun _ => isSpacing_newline)
  | item :: items, r => by
    have hitem := spells_laidOut (level + 1) item (endsNumber_laidOutItems level items r)
    rw [laidOutItems, List.cons_append, List.append_assoc, List.append_assoc]
    exact .cons (marks_cons (by decide) _) (hitem.after fun _ => isSpacing_newline)
      (spells_laidOutItems level items r)

theorem spells_laidOutMembers (level : Nat) : ∀ (members : List (String × Json)) (r : List Char),
    SpellsMembers members (laidOutMembers level members ++ r) r
  | [], r => by
    rw [laidOutMembers, List.append_assoc]
    exact .nil ((marks_cons (by decide) r).after fun _ => isSpacing_newline)
  | (key, value) :: members, r => by
    have hvalue := spells_laidOut (level + 1) value (endsNumber_laidOutMembers level members r)
    have hspaced : Spells value (' ' :: (value.laidOut (level + 1) ++ (laidOutMembers level members ++ r)))
        (laidOutMembers level members ++ r) := hvalue.after isSpacing_space
    simp only [laidOutMembers, List.cons_append, List.append_assoc, List.nil_append]
    exact .cons (marks_cons (by decide) _)
      ((spellsText_quoted key _).after fun _ => isSpacing_newline) (marks_cons (by decide) _)
      hspaced (spells_laidOutMembers level members r)

end

end EndpointPreview.Json
