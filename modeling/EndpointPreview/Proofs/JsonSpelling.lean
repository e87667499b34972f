import EndpointPreview.Number.Digits
import EndpointPreview.Proofs.JsonText
/-!
Texts in which not every value is known. The parts of a list or of an object may each have a way to
be written of their own, and a part of which nothing is known may be any JSON text: its strings may
hold half a surrogate pair, its numbers may be of any size and its values nested to any depth.
-/

namespace EndpointPreview.Json

open Text (isSpacing)

def AreDigits (ds : List Char) : Prop :=
  ds ≠ [] ∧ ∀ d ∈ ds, d.isDigit = true

inductive IsFraction : List Char → Prop
  | absent : IsFraction []
  | present {ds} (hds : AreDigits ds) : IsFraction ('.' :: ds)

inductive IsExponent : List Char → Prop
  | absent : IsExponent []
  | present {e sign ds} (he : e = 'e' ∨ e = 'E') (hsign : sign ∈ [[], ['+'], ['-']])
      (hds : AreDigits ds) : IsExponent (e :: (sign ++ ds))

inductive IsNumber : List Char → Prop
  | mk {sign whole fraction exponent} (hsign : sign ∈ [[], ['-']]) (hwhole : AreDigits whole)
      (hzero : whole.head? = some '0' → whole = ['0']) (hfraction : IsFraction fraction)
      (hexponent : IsExponent exponent) : IsNumber (sign ++ (whole ++ (fraction ++ exponent)))

/-- What follows the opening quote of a string, and the rest after its closing quote. -/
inductive AnyText : List Char → List Char → Prop
  | nil {r} : AnyText ('"' :: r) r
  | plain {c s r} (hc : c ∉ ['"', '\\']) (hcontrol : 0x20 ≤ c.toNat) (h : AnyText s r) :
      AnyText (c :: s) r
  | short {c s r} (hc : c ∈ ['"', '\\', '/', 'b', 'f', 'n', 'r', 't']) (h : AnyText s r) :
      AnyText ('\\' :: c :: s) r
  | unicode {a b c d s r} (hhex : [a, b, c, d].all isHexDigit = true) (h : AnyText s r) :
      AnyText ('\\' :: 'u' :: a :: b :: c :: d :: s) r

mutual

inductive AnyValue : List Char → List Char → Prop
  | word {c w s r} (hw : (c, w) ∈ [('n', ['u', 'l', 'l']), ('t', ['r', 'u', 'e']),
      ('f', ['a', 'l', 's', 'e'])]) (h : Marks c s (w ++ r)) : AnyValue s r
  | number {n s r} (hn : IsNumber n) (h : s.dropWhile isSpacing = n ++ r) (hend : EndsNumber r) :
      AnyValue s r
  | text {s s₁ r} (hquote : Marks '"' s s₁) (htext : AnyText s₁ r) : AnyValue s r
  | emptyList {s s₁ r} (hopen : Marks '[' s s₁) (hclose : Marks ']' s₁ r) : AnyValue s r
  | list {s s₁ r} (hopen : Marks '[' s s₁) (hitems : AnyItems s₁ r) : AnyValue s r
  | emptyObject {s s₁ r} (hopen : Marks '\x7b' s s₁) (hclose : Marks '\x7d' s₁ r) : AnyValue s r
  | object {s s₁ r} (hopen : Marks '\x7b' s s₁) (hmembers : AnyMembers s₁ r) : AnyValue s r

inductive AnyItems : List Char → List Char → Prop
  | last {s s₁ r} (hitem : AnyValue s s₁) (hclose : Marks ']' s₁ r) : AnyItems s r
  | cons {s s₁ s₂ r} (hitem : AnyValue s s₁) (hcomma : Marks ',' s₁ s₂)
      (hitems : AnyItems s₂ r) : AnyItems s r

inductive AnyMembers : List Char → List Char → Prop
  | last {s s₁ s₂ s₃ s₄ r} (hquote : Marks '"' s s₁) (hkey : AnyText s₁ s₂)
      (hcolon : Marks ':' s₂ s₃) (hvalue : AnyValue s₃ s₄) (hclose : Marks '\x7d' s₄ r) :
      AnyMembers s r
  | cons {s s₁ s₂ s₃ s₄ s₅ r} (hquote : Marks '"' s s₁) (hkey : AnyText s₁ s₂)
      (hcolon : Marks ':' s₂ s₃) (hvalue : AnyValue s₃ s₄) (hcomma : Marks ',' s₄ s₅)
      (hmembers : AnyMembers s₅ r) : AnyMembers s r

end

theorem AreDigits.exists_cons {ds : List Char} (h : AreDigits ds) :
    ∃ d t, ds = d :: t ∧ d.isDigit = true := by
  obtain ⟨d, t, rfl⟩ := List.exists_cons_of_ne_nil h.1
  exact ⟨d, t, rfl, h.2 d List.mem_cons_self⟩

theorem IsNumber.exists_cons {n : List Char} (h : IsNumber n) :
    ∃ c t, n = c :: t ∧ (c = '-' ∨ c.isDigit = true) := by
  obtain ⟨hsign, hwhole, -, -, -⟩ := h
  rcases List.mem_cons.mp hsign with rfl | hsign
  · obtain ⟨d, t, rfl, hd⟩ := hwhole.exists_cons
    exact ⟨d, _, rfl, .inr hd⟩
  · obtain rfl := List.mem_singleton.mp hsign
    exact ⟨'-', _, rfl, .inl rfl⟩

theorem AnyValue.of_dropWhile_eq {s s' r : List Char}
    (hs : s.dropWhile isSpacing = s'.dropWhile isSpacing) (h : AnyValue s r) : AnyValue s' r := by
  have hmarks : ∀ {c t}, Marks c s t → Marks c s' t := fun h => hs.symm.trans h
  cases h with
  | word hw h => exact .word hw (hmarks h)
  | number hn h hend => exact .number hn (hs.symm.trans h) hend
  | text hquote htext => exact .text (hmarks hquote) htext
  | emptyList hopen hclose => exact .emptyList (hmarks hopen) hclose
  | list hopen hitems => exact .list (hmarks hopen) hitems
  | emptyObject hopen hclose => exact .emptyObject (hmarks hopen) hclose
  | object hopen hmembers => exact .object (hmarks hopen) hmembers

theorem AnyValue.exists_head {s r : List Char} (h : AnyValue s r) :
    ∃ c t, Marks c s t ∧ c ≠ ']' := by
  cases h with
  | word hw h =>
    refine ⟨_, _, h, ?_⟩
    rintro rfl
    revert hw
    simp
  | number hn h _ =>
    obtain ⟨c, t, rfl, hc⟩ := hn.exists_cons
    refine ⟨c, _, h, ?_⟩
    rintro rfl
    exact absurd hc (by decide)
  | text h _ => exact ⟨_, _, h, by decide⟩
  | emptyList h _ => exact ⟨_, _, h, by decide⟩
  | list h _ => exact ⟨_, _, h, by decide⟩
  | emptyObject h _ => exact ⟨_, _, h, by decide⟩
  | object h _ => exact ⟨_, _, h, by decide⟩

/-- A way to write a value in front of a rest. What it begins with is not the end of a list. -/
structure Spelling where
  spells : List Char → List Char → Prop
  begins : ∀ {s r}, spells s r → ∃ c t, Marks c s t ∧ c ≠ ']' ∧ spells (c :: t) r

inductive SpelledItems : List Spelling → List Char → List Char → Prop
  | nil {s r} (hclose : Marks ']' s r) : SpelledItems [] s r
  | cons {t ts s s₁ s₂ r} (hcomma : Marks ',' s s₁) (hitem : t.spells s₁ s₂)
      (hitems : SpelledItems ts s₂ r) : SpelledItems (t :: ts) s r

inductive SpelledList : List Spelling → List Char → List Char → Prop
  | nil {s s₁ r} (hopen : Marks '[' s s₁) (hclose : Marks ']' s₁ r) : SpelledList [] s r
  | cons {t ts s s₁ s₂ r} (hopen : Marks '[' s s₁) (hitem : t.spells s₁ s₂)
      (hitems : SpelledItems ts s₂ r) : SpelledList (t :: ts) s r

inductive SpelledMembers : List (String × Spelling) → List Char → List Char → Prop
  | nil {s r} (hclose : Marks '\x7d' s r) : SpelledMembers [] s r
  | cons {key t members s s₁ s₂ s₃ s₄ r} (hcomma : Marks ',' s s₁)
      (hkey : SpellsText key s₁ s₂) (hcolon : Marks ':' s₂ s₃) (hvalue : t.spells s₃ s₄)
      (hmembers : SpelledMembers members s₄ r) : SpelledMembers ((key, t) :: members) s r

inductive SpelledObject : List (String × Spelling) → List Char → List Char → Prop
  | nil {s s₁ r} (hopen : Marks '\x7b' s s₁) (hclose : Marks '\x7d' s₁ r) : SpelledObject [] s r
  | cons {key t members s s₁ s₂ s₃ s₄ r} (hopen : Marks '\x7b' s s₁)
      (hkey : SpellsText key s₁ s₂) (hcolon : Marks ':' s₂ s₃) (hvalue : t.spells s₃ s₄)
      (hmembers : SpelledMembers members s₄ r) : SpelledObject ((key, t) :: members) s r

namespace Spelling

def json (j : Json) : Spelling where
  spells := Spells j
  begins h := by
    obtain ⟨c, t, hc, hne⟩ := h.exists_head
    exact ⟨c, t, hc, hne, h.of_dropWhile_eq (dropWhile_eq_of_marks hc)⟩

def any : Spelling where
  spells := AnyValue
  begins h := by
    obtain ⟨c, t, hc, hne⟩ := h.exists_head
    exact ⟨c, t, hc, hne, h.of_dropWhile_eq (dropWhile_eq_of_marks hc)⟩

def list (ts : List Spelling) : Spelling where
  spells := SpelledList ts
  begins h := by
    cases h with
    | nil hopen hclose => exact ⟨_, _, hopen, by decide, .nil (marks_cons (by decide) _) hclose⟩
    | cons hopen hitem hitems =>
      exact ⟨_, _, hopen, by decide, .cons (marks_cons (by decide) _) hitem hitems⟩

def object (members : List (String × Spelling)) : Spelling where
  spells := SpelledObject members
  begins h := by
    cases h with
    | nil hopen hclose => exact ⟨_, _, hopen, by decide, .nil (marks_cons (by decide) _) hclose⟩
    | cons hopen hkey hcolon hvalue hmembers =>
      exact ⟨_, _, hopen, by decide, .cons (marks_cons (by decide) _) hkey hcolon hvalue hmembers⟩

end Spelling

def Spelling.Writes (t : Spelling) (text : String) : Prop :=
  ∃ r, t.spells text.toList r ∧ r.dropWhile isSpacing = []

theorem SpelledList.exists_marks {ts : List Spelling} {s r : List Char} (h : SpelledList ts s r) :
    ∃ s₁, Marks '[' s s₁ := by
  cases h with
  | nil hopen _ => exact ⟨_, hopen⟩
  | cons hopen _ _ => exact ⟨_, hopen⟩

theorem SpelledObject.exists_marks {members : List (String × Spelling)} {s r : List Char}
    (h : SpelledObject members s r) : ∃ s₁, Marks '\x7b' s s₁ := by
  cases h with
  | nil hopen _ => exact ⟨_, hopen⟩
  | cons hopen _ _ _ _ => exact ⟨_, hopen⟩

theorem spelledItems_of_spellsItems {items : List Json} {s r : List Char}
    (h : SpellsItems items s r) : SpelledItems (items.map .json) s r := by
  induction items generalizing s with
  | nil => cases h with | nil hclose => exact .nil hclose
  | cons item items ih =>
    cases h with | cons hcomma hitem hitems => exact .cons hcomma hitem (ih hitems)

theorem spelledList_of_spells {items : List Json} {s r : List Char} (h : Spells (.list items) s r) :
    SpelledList (items.map .json) s r := by
  cases h with
  | emptyList hopen hclose => exact .nil hopen hclose
  | list hopen hitem hitems => exact .cons hopen hitem (spelledItems_of_spellsItems hitems)

theorem spelledMembers_of_spellsMembers {members : List (String × Json)} {s r : List Char}
    (h : SpellsMembers members s r) :
    SpelledMembers (members.map fun (key, j) => (key, .json j)) s r := by
  induction members generalizing s with
  | nil => cases h with | nil hclose => exact .nil hclose
  | cons member members ih =>
    cases h with
    | cons hcomma hkey hcolon hvalue hmembers =>
      exact .cons hcomma hkey hcolon hvalue (ih hmembers)

theorem spelledObject_of_spells {members : List (String × Json)} {s r : List Char}
    (h : Spells (.object members) s r) :
    SpelledObject (members.map fun (key, j) => (key, .json j)) s r := by
  cases h with
  | emptyObject hopen hclose => exact .nil hopen hclose
  | object hopen hkey hcolon hvalue hmembers =>
    exact .cons hopen hkey hcolon hvalue (spelledMembers_of_spellsMembers hmembers)

end EndpointPreview.Json
