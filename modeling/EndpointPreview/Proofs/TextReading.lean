import EndpointPreview.Proofs.PageSize
import EndpointPreview.Proofs.QueryText
/-!
Texts that can be read back: where one is followed by a rest that cannot belong to it, both the thing
that was written and the rest are determined.
-/

namespace EndpointPreview

variable {α : Type}

def Readable (text : α → List Char) (valid : α → Prop) (ends : List Char → Prop) : Prop :=
  ∀ ⦃a a' r r'⦄, valid a → valid a' → ends r → ends r' → text a ++ r = text a' ++ r' →
    a = a' ∧ r = r'

/-- No word goes on to another one but with a character that must not follow. -/
theorem readable_words {text : α → List Char} {p : Char → Bool}
    (h : ∀ a a', text a <+: text a' → a = a' ∨ ∃ c t, text a' = text a ++ c :: t ∧ p c = true) :
    Readable text (fun _ => True) (Stops p) := by
  have hprefix : ∀ {a a' r r' t}, Stops p r → text a' = text a ++ t → r = t ++ r' →
      a = a' ∧ r = r' := by
    intro a a' r r' t hr ht he
    rcases h a a' ⟨t, ht.symm⟩ with rfl | ⟨c, u, hc, hp⟩
    · rw [List.self_eq_append_right] at ht
      exact ⟨rfl, by rw [he, ht, List.nil_append]⟩
    · rw [List.append_cancel_left (ht.symm.trans hc)] at he
      rw [he] at hr
      exact absurd hp (by simp [hr c rfl])
  intro a a' r r' _ _ hr hr' he
  rcases List.append_eq_append_iff.mp he with ⟨t, ht, hrest⟩ | ⟨t, ht, hrest⟩
  · exact hprefix hr ht hrest
  · obtain ⟨ha, hrest⟩ := hprefix hr' ht hrest
    exact ⟨ha.symm, hrest.symm⟩

theorem Readable.weaken {text : α → List Char} {valid : α → Prop} {ends ends' : List Char → Prop}
    (h : Readable text valid ends) (hends : ∀ r, ends' r → ends r) : Readable text valid ends' :=
  fun _ _ _ _ ha ha' hr hr' => h ha ha' (hends _ hr) (hends _ hr')

theorem readable_of_prefixFree {text : α → List Char} (h : ∀ a a', text a <+: text a' → a = a') :
    Readable text (fun _ => True) (fun _ => True) := by
  have hwords : Readable text (fun _ => True) (Stops fun _ => false) :=
    readable_words fun a a' hprefix => .inl (h a a' hprefix)
  exact hwords.weaken fun _ _ _ _ => rfl

def optionChars (before : List Char) (text : α → List Char) : Option α → List Char
  | none => []
  | some a => before ++ text a

def moreChars (sep : List Char) (text : α → List Char) (items : List α) : List Char :=
  items.flatMap fun a => sep ++ text a

theorem intercalate_map_cons (sep : List Char) (text : α → List Char) (a : α) (items : List α) :
    sep.intercalate ((a :: items).map text) = text a ++ moreChars sep text items := by
  induction items generalizing a with
  | nil => simp [moreChars]
  | cons b items ih =>
    rw [List.map_cons, List.map_cons, List.intercalate_cons_cons, ← List.map_cons, ih, moreChars,
      moreChars, List.flatMap_cons]
    simp only [List.append_assoc]

variable {text : α → List Char} {valid : α → Prop} {ends ends' : List Char → Prop}

theorem Readable.inj (h : Readable text valid ends) (hnil : ends []) {a a' : α} (ha : valid a)
    (ha' : valid a') (he : text a = text a') : a = a' :=
  (h ha ha' hnil hnil (congrArg (· ++ []) he)).1

theorem Readable.option {before : List Char} (h : Readable text valid ends)
    (hends : ∀ {a r r'}, valid a → ends r → r ≠ before ++ (text a ++ r')) :
    Readable (optionChars before text) (fun o => ∀ a ∈ o, valid a) ends := by
  rintro (_ | a) (_ | a') r r' ha ha' hr hr' he
  · exact ⟨rfl, he⟩
  · rw [optionChars, optionChars, List.nil_append, List.append_assoc] at he
    exact absurd he (hends (ha' a' rfl) hr)
  · rw [optionChars, optionChars, List.nil_append, List.append_assoc] at he
    exact absurd he.symm (hends (ha a rfl) hr')
  · rw [optionChars, optionChars, List.append_assoc, List.append_assoc] at he
    obtain ⟨rfl, hrest⟩ := h (ha a rfl) (ha' a' rfl) hr hr' (List.append_cancel_left he)
    exact ⟨rfl, hrest⟩

section

variable {sep : List Char} (h : Readable text valid ends) (hsep : ∀ s, ends (sep ++ s))
  (hends : ∀ {r}, ends' r → ends r ∧ ¬sep <+: r)

include hsep hends

theorem ends_moreChars {r : List Char} (hr : ends' r) (items : List α) :
    ends (moreChars sep text items ++ r) := by
  cases items with
  | nil => exact (hends hr).1
  | cons a items =>
    rw [moreChars, List.flatMap_cons, List.append_assoc, List.append_assoc]
    exact hsep _

include h

theorem Readable.more :
    Readable (moreChars sep text) (fun items => ∀ a ∈ items, valid a) ends' := by
  intro items
  induction items with
  | nil =>
    rintro (_ | ⟨a', items'⟩) r r' _ _ hr _ he
    · exact ⟨rfl, he⟩
    · rw [moreChars, moreChars, List.flatMap_nil, List.nil_append, List.flatMap_cons,
        List.append_assoc, List.append_assoc] at he
      exact absurd ⟨_, he.symm⟩ (hends hr).2
  | cons a items ih =>
    rintro (_ | ⟨a', items'⟩) r r' hvalid hvalid' hr hr' he
    · rw [moreChars, moreChars, List.flatMap_nil, List.nil_append, List.flatMap_cons,
        List.append_assoc, List.append_assoc] at he
      exact absurd ⟨_, he⟩ (hends hr').2
    · rw [List.forall_mem_cons] at hvalid hvalid'
      rw [moreChars, moreChars, List.flatMap_cons, List.flatMap_cons] at he
      simp only [List.append_assoc] at he
      obtain ⟨rfl, hrest⟩ := h hvalid.1 hvalid'.1 (ends_moreChars hsep hends hr items)
        (ends_moreChars hsep hends hr' items') (List.append_cancel_left he)
      obtain ⟨rfl, hend⟩ := ih hvalid.2 hvalid'.2 hr hr' hrest
      exact ⟨rfl, hend⟩

theorem Readable.intercalate :
    Readable (fun items => sep.intercalate (items.map text))
      (fun items => items ≠ [] ∧ ∀ a ∈ items, valid a) ends' := by
  rintro items items' r r' ⟨hne, hvalid⟩ ⟨hne', hvalid'⟩ hr hr' he
  obtain ⟨a, items, rfl⟩ := List.exists_cons_of_ne_nil hne
  obtain ⟨a', items', rfl⟩ := List.exists_cons_of_ne_nil hne'
  rw [List.forall_mem_cons] at hvalid hvalid'
  simp only [intercalate_map_cons, List.append_assoc] at he
  obtain ⟨rfl, hrest⟩ := h hvalid.1 hvalid'.1 (ends_moreChars hsep hends hr items)
    (ends_moreChars hsep hends hr' items') he
  obtain ⟨rfl, hend⟩ := h.more hsep hends hvalid.2 hvalid'.2 hr hr' hrest
  exact ⟨rfl, hend⟩

end

def isColumnChar (c : Char) : Bool :=
  isNameRest c || c == '.'

theorem Ident.isColumnChar_of_mem {name : Ident} {c : Char} (h : c ∈ name.text.toList) :
    isColumnChar c = true := by
  rw [isColumnChar, isNameRest_of_mem name.safe h, Bool.true_or]

theorem ColumnRef.isColumnChar_of_mem {column : ColumnRef} {c : Char}
    (h : c ∈ column.text.toList) : isColumnChar c = true := by
  rcases ColumnRef.mem_text h with h | rfl
  · rw [isColumnChar, h, Bool.true_or]
  · decide

theorem ColumnRef.text_ne_nil (column : ColumnRef) : column.text.toList ≠ [] := by
  intro hnil
  have hsafe : isColumnPath column.text = true := column.safe
  rw [isColumnPath, hnil] at hsafe
  cases hsafe

theorem Ident.readable :
    Readable (fun name : Ident => name.text.toList) (fun _ => True) (Stops isColumnChar) := by
  intro name name' r r' _ _ hr hr' he
  obtain ⟨htext, hrest⟩ := append_inj_of_stops (fun _ => Ident.isColumnChar_of_mem)
    (fun _ => Ident.isColumnChar_of_mem) hr hr' he
  cases name
  cases name'
  cases String.toList_inj.mp htext
  exact ⟨rfl, hrest⟩

theorem ColumnRef.readable :
    Readable (fun column : ColumnRef => column.text.toList) (fun _ => True)
      (Stops isColumnChar) := by
  intro column column' r r' _ _ hr hr' he
  obtain ⟨htext, hrest⟩ := append_inj_of_stops (fun _ => ColumnRef.isColumnChar_of_mem)
    (fun _ => ColumnRef.isColumnChar_of_mem) hr hr' he
  cases column
  cases column'
  cases String.toList_inj.mp htext
  exact ⟨rfl, hrest⟩

theorem readable_count :
    Readable (fun n : UInt32 => (toString n.toNat).toList) (fun _ => True) (Stops Char.isDigit) := by
  have hdigit : ∀ n : UInt32, ∀ c ∈ (toString n.toNat).toList, c.isDigit = true := by
    intro n c hc
    rw [Nat.toString_eq_ofList_toDigits, String.toList_ofList] at hc
    exact Nat.isDigit_of_mem_toDigits (by decide) (by decide) hc
  intro n n' r r' _ _ hr hr' he
  obtain ⟨htext, hrest⟩ := append_inj_of_stops (hdigit n) (hdigit n') hr hr' he
  exact ⟨toString_toNat_inj.mp (String.toList_inj.mp htext), hrest⟩

end EndpointPreview
