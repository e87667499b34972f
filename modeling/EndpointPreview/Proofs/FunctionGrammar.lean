import EndpointPreview.Proofs.ReferenceGrammar
/-!
The grammar of function names. A whole text calls a function if it is the name of the function in
any case, with or without parentheses behind it and with spacing around; the reader accepts these
texts and no others. It makes no difference by which lower-casing of characters the name is compared.
-/

namespace EndpointPreview

open Text

theorem toNat_toLower (c : Char) :
    c.toLower.toNat = if 65 ≤ c.toNat ∧ c.toNat ≤ 90 then c.toNat + 32 else c.toNat := by
  by_cases h : 65 ≤ c.toNat ∧ c.toNat ≤ 90
  · have hsmall : c.toLower = _ := dif_pos h
    have hstep : ('a'.val - 'A'.val).toNat = 32 := rfl
    rw [if_pos h, hsmall, Char.toNat_mk, UInt32.toNat_add, hstep, Char.toNat_val]
    omega
  · have hsame : c.toLower = c := dif_neg h
    rw [if_neg h, hsame]

theorem toNat_toUpper (c : Char) :
    c.toUpper.toNat = if 97 ≤ c.toNat ∧ c.toNat ≤ 122 then c.toNat - 32 else c.toNat := by
  by_cases h : 97 ≤ c.toNat ∧ c.toNat ≤ 122
  · have hcapital : c.toUpper = _ := dif_pos h
    -- The step back to the capital letters wraps around.
    have hstep : ('A'.val - 'a'.val).toNat = 4294967264 := rfl
    rw [if_pos h, hcapital, Char.toNat_mk, UInt32.toNat_add, hstep, Char.toNat_val]
    omega
  · have hsame : c.toUpper = c := dif_neg h
    rw [if_neg h, hsame]

theorem toLower_eq_iff {a c : Char} (ha : a.toLower = a) :
    c.toLower = a ↔ c = a ∨ c = a.toUpper := by
  simp only [← Char.toNat_inj, toNat_toLower, toNat_toUpper] at ha ⊢
  split_ifs at ha ⊢ <;> omega

theorem toLower_of_not_ascii {c : Char} (h : 128 ≤ c.toNat) : c.toLower = c := by
  rw [← Char.toNat_inj, toNat_toLower, if_neg]
  omega

namespace ValueText

def InAnyCase (word text : List Char) : Prop :=
  List.Forall₂ (fun a c => c = a ∨ c = a.toUpper) word text

inductive Parentheses : List Char → Prop
  | absent : Parentheses []
  | present {before within : List Char} (hbefore : ∀ c ∈ before, isSpacing c = true)
      (hwithin : ∀ c ∈ within, isSpacing c = true) :
      Parentheses (before ++ '(' :: (within ++ [')']))

def Ends (s : List Char) : Prop :=
  ∃ parentheses after, Parentheses parentheses ∧ (∀ c ∈ after, isSpacing c = true) ∧
    s = parentheses ++ after

def Calls (s : String) (f : Function) : Prop :=
  ∃ before name rest, (∀ c ∈ before, isSpacing c = true) ∧ InAnyCase f.word.toList name ∧
    Ends rest ∧ s.toList = before ++ name ++ rest

def functionLetters : List Char :=
  Function.all.flatMap fun f => f.word.toList

theorem mem_all (f : Function) : f ∈ Function.all := by
  cases f <;> decide

theorem mem_functionLetters {f : Function} {a : Char} (h : a ∈ f.word.toList) :
    a ∈ functionLetters :=
  List.mem_flatMap.mpr ⟨f, mem_all f, h⟩

theorem functionLetter_toLower {a : Char} (h : a ∈ functionLetters) : a.toLower = a := by
  have hall : functionLetters.all (fun a => a.toLower = a) = true := by decide
  simpa using List.all_eq_true.mp hall a h

theorem functionLetter_toNat {a : Char} (h : a ∈ functionLetters) : a.toNat < 128 := by
  have hall : functionLetters.all (fun a => a.toNat < 128) = true := by decide
  simpa using List.all_eq_true.mp hall a h

theorem afterWord?_eq_some {word s r : List Char} (hword : ∀ a ∈ word, a ∈ functionLetters) :
    afterWord? word s = some r ↔ ∃ name, InAnyCase word name ∧ s = name ++ r := by
  induction word generalizing s with
  | nil =>
    rw [afterWord?, Option.some_inj]
    constructor
    · rintro rfl
      exact ⟨[], .nil, rfl⟩
    · rintro ⟨name, ⟨⟩, rfl⟩
      rfl
  | cons a word ih =>
    have hcase := fun c : Char =>
      toLower_eq_iff (c := c) (functionLetter_toLower (hword a List.mem_cons_self))
    have hrest := fun s : List Char => ih (s := s) fun b hb => hword b (List.mem_cons_of_mem a hb)
    constructor
    · intro h
      cases s with
      | nil => cases h
      | cons c s =>
        rw [afterWord?] at h
        split_ifs at h with hc
        obtain ⟨name, hname, rfl⟩ := (hrest s).mp h
        exact ⟨c :: name, .cons ((hcase c).mp hc) hname, rfl⟩
    · rintro ⟨name, hname, rfl⟩
      cases hname with
      | @cons _ c _ name hc hname =>
        rw [List.cons_append, afterWord?, if_pos ((hcase c).mpr hc)]
        exact (hrest _).mpr ⟨name, hname, rfl⟩

theorem ends_of_spacing {s : List Char} (h : ∀ c ∈ s, isSpacing c = true) : Ends s :=
  ⟨[], s, .absent, h, rfl⟩

theorem afterParentheses_present {before within : List Char}
    (hbefore : ∀ c ∈ before, isSpacing c = true) (hwithin : ∀ c ∈ within, isSpacing c = true)
    (s : List Char) : afterParentheses (before ++ '(' :: (within ++ ')' :: s)) = s := by
  have hopen : skipSpacing (before ++ '(' :: (within ++ ')' :: s)) = '(' :: (within ++ ')' :: s) := by
    rw [skipSpacing_append hbefore, skipSpacing_of_head (stops_cons rfl _)]
  have hclose : skipSpacing (within ++ ')' :: s) = ')' :: s := by
    rw [skipSpacing_append hwithin, skipSpacing_of_head (stops_cons rfl _)]
  simp only [afterParentheses, hopen, hclose]

theorem ends_iff {s : List Char} : Ends s ↔ skipSpacing (afterParentheses s) = [] := by
  constructor
  · rintro ⟨parentheses, after, hparentheses, hafter, rfl⟩
    cases hparentheses with
    | absent =>
      have hnone : skipSpacing after = [] := skipSpacing_eq_nil.mpr hafter
      simp only [List.nil_append, afterParentheses, hnone]
    | @present before within hbefore hwithin =>
      have hrest := afterParentheses_present hbefore hwithin after
      rw [List.append_assoc, List.cons_append, List.append_assoc, List.singleton_append, hrest]
      exact skipSpacing_eq_nil.mpr hafter
  · intro h
    unfold afterParentheses at h
    split at h
    · next inside hopen =>
      obtain ⟨before, hbefore, hs⟩ := exists_spacing s
      rw [hopen] at hs
      split at h
      · next after hclose =>
        obtain ⟨within, hwithin, hinside⟩ := exists_spacing inside
        rw [hclose] at hinside
        refine ⟨_, after, .present hbefore hwithin, skipSpacing_eq_nil.mp h, ?_⟩
        rw [hs, hinside]
        simp
      · -- Without a closing parenthesis nothing has been passed over.
        exact ends_of_spacing (skipSpacing_eq_nil.mp h)
    · exact ends_of_spacing (skipSpacing_eq_nil.mp h)

theorem Ends.closes {s : List Char} (h : Ends s) (hopen : '(' ∈ s) : ')' ∈ s := by
  obtain ⟨parentheses, after, hparentheses, hafter, rfl⟩ := h
  cases hparentheses with
  | absent => exact absurd (hafter _ hopen) (by decide)
  | present => simp

theorem InAnyCase.isNameRest {f : Function} {name : List Char}
    (h : InAnyCase f.word.toList name) : ∀ c ∈ name, isNameRest c = true := by
  have hall : functionLetters.all (fun a => EndpointPreview.isNameRest a &&
      EndpointPreview.isNameRest a.toUpper) = true := by decide
  have hletters : ∀ a ∈ f.word.toList, a ∈ functionLetters := fun _ => mem_functionLetters
  generalize f.word.toList = word at h hletters
  induction h with
  | nil => exact nofun
  | @cons a c word name hcase hname ih =>
    have hletter := List.all_eq_true.mp hall a (hletters a List.mem_cons_self)
    rw [Bool.and_eq_true] at hletter
    rw [List.forall_mem_cons]
    refine ⟨?_, ih fun b hb => hletters b (List.mem_cons_of_mem a hb)⟩
    rcases hcase with rfl | rfl
    · exact hletter.1
    · exact hletter.2

theorem InAnyCase.skipSpacing_append {f : Function} {name : List Char}
    (h : InAnyCase f.word.toList name) (r : List Char) : skipSpacing (name ++ r) = name ++ r := by
  have hrest := h.isNameRest
  cases name with
  | nil => cases f <;> cases h
  | cons c name =>
    have hc : isSpacing c = false := not_isSpacing_of_isNameRest (hrest c List.mem_cons_self)
    exact skipSpacing_of_head (stops_cons hc (name ++ r))

theorem head_of_afterWord? {f : Function} {s r : List Char}
    (h : afterWord? f.word.toList s = some r) : s.head?.map Char.toLower = f.word.toList.head? := by
  generalize hword : f.word.toList = word at h
  cases word with
  | nil => cases f <;> cases hword
  | cons a word =>
    cases s with
    | nil => cases h
    | cons c s =>
      rw [afterWord?] at h
      split_ifs at h with hc
      rw [List.head?_cons, List.head?_cons, Option.map_some, hc]

theorem eq_of_afterWord? {f g : Function} {s r r' : List Char}
    (hf : afterWord? f.word.toList s = some r) (hg : afterWord? g.word.toList s = some r') :
    f = g := by
  -- The first letter of a name tells the functions apart.
  have hletters : ∀ f ∈ Function.all, ∀ g ∈ Function.all,
      f.word.toList.head? = g.word.toList.head? → f = g := by decide
  apply hletters f (mem_all f) g (mem_all g)
  rw [← head_of_afterWord? hf, ← head_of_afterWord? hg]

theorem calls_iff {s : String} {f : Function} :
    Calls s f ↔ ∃ r, afterWord? f.word.toList (skipSpacing s.toList) = some r ∧ Ends r := by
  have hread := fun s r => afterWord?_eq_some (s := s) (r := r) fun _ => mem_functionLetters (f := f)
  constructor
  · rintro ⟨before, name, rest, hbefore, hname, hrest, hs⟩
    refine ⟨rest, (hread _ _).mpr ⟨name, hname, ?_⟩, hrest⟩
    rw [hs, List.append_assoc, ValueText.skipSpacing_append hbefore, hname.skipSpacing_append]
  · rintro ⟨r, hword, hends⟩
    obtain ⟨name, hname, hs⟩ := (hread _ _).mp hword
    obtain ⟨before, hbefore, hsplit⟩ := exists_spacing s.toList
    refine ⟨before, name, r, hbefore, hname, hends, ?_⟩
    rw [List.append_assoc, ← hs]
    exact hsplit

theorem calls_of_function? {s : String} {f : Function} (h : function? s = some f) : Calls s f := by
  have hfound := List.find?_some h
  split at hfound
  · next r hr => exact calls_iff.mpr ⟨r, hr, ends_iff.mpr (of_decide_eq_true hfound)⟩
  · cases hfound

theorem function?_eq_some {s : String} {f : Function} : function? s = some f ↔ Calls s f := by
  refine ⟨calls_of_function?, ?_⟩
  intro h
  obtain ⟨r, hr, hends⟩ := calls_iff.mp h
  have hfound : (function? s).isSome = true := by
    refine List.find?_isSome.mpr ⟨f, mem_all f, ?_⟩
    simp only [hr, ends_iff.mp hends, decide_true]
  obtain ⟨g, hg⟩ := Option.isSome_iff_exists.mp hfound
  -- The first function that is found is the only one whose name the text begins with.
  obtain ⟨r', hr', -⟩ := calls_iff.mp (calls_of_function? hg)
  rw [hg, eq_of_afterWord? hr hr']

theorem function?_eq_none {s : String} : function? s = none ↔ ∀ f, ¬ Calls s f := by
  rw [Option.eq_none_iff_forall_ne_some]
  exact forall_congr' fun f => not_congr function?_eq_some

theorem calls_of_name {f g : Function} {before name rest : List Char}
    (hbefore : ∀ c ∈ before, isSpacing c = true) (hname : InAnyCase f.word.toList name)
    (h : Calls (String.ofList (before ++ name ++ rest)) g) : Ends rest := by
  have hword : afterWord? f.word.toList
      (skipSpacing (String.ofList (before ++ name ++ rest)).toList) = some rest := by
    rw [String.toList_ofList, List.append_assoc, ValueText.skipSpacing_append hbefore,
      hname.skipSpacing_append]
    exact (afterWord?_eq_some fun _ => mem_functionLetters).mpr ⟨name, hname, rfl⟩
  obtain ⟨r, hr, hends⟩ := calls_iff.mp h
  obtain rfl := eq_of_afterWord? hword hr
  rw [hword] at hr
  cases hr
  exact hends

theorem Calls.closes {s : String} {f : Function} (h : Calls s f) (hopen : '(' ∈ s.toList) :
    ')' ∈ s.toList := by
  obtain ⟨before, name, rest, hbefore, hname, hrest, hs⟩ := h
  rw [hs, List.mem_append, List.mem_append] at hopen ⊢
  rcases hopen with (hopen | hopen) | hopen
  · exact absurd (hbefore _ hopen) (by decide)
  · exact absurd (hname.isNameRest _ hopen) (by decide)
  · exact .inr (hrest.closes hopen)

/-- A lower-casing of characters: a letter of ASCII has its small letter, and what any other
character becomes begins with none of the letters of a name. -/
structure LowerCasing where
  lower : Char → List Char
  ascii : ∀ c, c.toNat < 128 → lower c = [c.toLower]
  foreign : ∀ c, 128 ≤ c.toNat → ∃ d ds, lower c = d :: ds ∧ d ∉ functionLetters

def bytes (s : List Char) : Nat :=
  s.foldr (fun c n => c.utf8Size + n) 0

def dropBytes : Nat → List Char → List Char
  | 0, s => s
  | _, [] => []
  | n + 1, c :: s => dropBytes (n + 1 - c.utf8Size) s

namespace LowerCasing

variable (casing : LowerCasing)

/-- What follows a word where the lower-casings of both texts agree as far as they go. The length of
the word is counted in bytes. -/
def afterWord? (word s : List Char) : Option (List Char) :=
  let pairs := (s.flatMap casing.lower).zip (word.flatMap casing.lower)
  if (pairs.all fun (c, a) => c == a) && bytes word ≤ bytes s then some (dropBytes (bytes word) s)
  else none

theorem utf8Size_of_ascii {c : Char} (h : c.toNat < 128) : c.utf8Size = 1 := by
  have hval : c.val ≤ 0x7f := by
    rw [UInt32.le_iff_toNat_le, Char.toNat_val]
    exact Nat.le_of_lt_succ h
  exact if_pos hval

theorem lower_letter {a : Char} (ha : a ∈ functionLetters) : casing.lower a = [a] := by
  rw [casing.ascii a (functionLetter_toNat ha), functionLetter_toLower ha]

theorem afterWord?_cons_of_ne {a c : Char} (ha : a ∈ functionLetters) (hc : c.toLower ≠ a)
    (word s : List Char) : casing.afterWord? (a :: word) (c :: s) = none := by
  obtain ⟨d, ds, hd, hne⟩ : ∃ d ds, casing.lower c = d :: ds ∧ d ≠ a := by
    by_cases hascii : c.toNat < 128
    · exact ⟨_, [], casing.ascii c hascii, hc⟩
    · obtain ⟨d, ds, hd, hmem⟩ := casing.foreign c (Nat.le_of_not_lt hascii)
      exact ⟨d, ds, hd, fun he => hmem (he ▸ ha)⟩
  simp [afterWord?, hd, casing.lower_letter ha, hne]

theorem afterWord?_cons_of_eq {a c : Char} (ha : a ∈ functionLetters) (hc : c.toLower = a)
    (word s : List Char) : casing.afterWord? (a :: word) (c :: s) = casing.afterWord? word s := by
  have haAscii : a.toNat < 128 := functionLetter_toNat ha
  have hcAscii : c.toNat < 128 := by
    by_contra hforeign
    rw [toLower_of_not_ascii (Nat.le_of_not_lt hforeign)] at hc
    exact hforeign (hc ▸ haAscii)
  have hbytes : ∀ {d : Char}, d.toNat < 128 → ∀ t, bytes (d :: t) = bytes t + 1 := by
    intro d hd t
    rw [bytes, List.foldr_cons, utf8Size_of_ascii hd, Nat.add_comm]
    rfl
  have hdrop : dropBytes (bytes word + 1) (c :: s) = dropBytes (bytes word) s := by
    rw [dropBytes, utf8Size_of_ascii hcAscii, Nat.add_sub_cancel]
  simp only [afterWord?, List.flatMap_cons, casing.ascii c hcAscii, casing.lower_letter ha, hc,
    List.singleton_append, List.zip_cons_cons, List.all_cons, beq_self_eq_true, Bool.true_and,
    hbytes haAscii, hbytes hcAscii, Nat.add_le_add_iff_right, hdrop]

theorem afterWord?_eq {word : List Char} (hword : ∀ a ∈ word, a ∈ functionLetters)
    (s : List Char) : casing.afterWord? word s = ValueText.afterWord? word s := by
  induction word generalizing s with
  | nil => simp [afterWord?, ValueText.afterWord?, bytes, dropBytes]
  | cons a word ih =>
    have ha := hword a List.mem_cons_self
    cases s with
    | nil =>
      simp [afterWord?, ValueText.afterWord?, bytes, utf8Size_of_ascii (functionLetter_toNat ha)]
    | cons c s =>
      rw [ValueText.afterWord?]
      split_ifs with hc
      · rw [casing.afterWord?_cons_of_eq ha hc]
        exact ih (fun b hb => hword b (List.mem_cons_of_mem a hb)) s
      · exact casing.afterWord?_cons_of_ne ha hc word s

/-- The lower-casing of ASCII with the two characters beyond it whose small letter is one of ASCII,
the Kelvin sign and the dotted capital I. -/
def withSigns : LowerCasing where
  lower c := if c = '\u212a' then ['k'] else if c = '\u0130' then ['i', '\u0307'] else [c.toLower]
  ascii c hc := by
    have hkelvin : c ≠ '\u212a' := by
      rintro rfl
      exact absurd hc (by decide)
    have hdotted : c ≠ '\u0130' := by
      rintro rfl
      exact absurd hc (by decide)
    rw [if_neg hkelvin, if_neg hdotted]
  foreign c hc := by
    split_ifs
    · exact ⟨'k', [], rfl, by decide⟩
    · exact ⟨'i', ['\u0307'], rfl, by decide⟩
    · refine ⟨c, [], by rw [toLower_of_not_ascii hc], fun hmem => ?_⟩
      exact absurd (functionLetter_toNat hmem) (Nat.not_lt.mpr hc)

end LowerCasing

end ValueText

/-- The reader of function names accepts its grammar, with the one function that is named. Behind a
name anything but parentheses and spacing is refused, and so is a parenthesis that is not closed.
The names are read as they would be by any lower-casing of the text. -/
theorem function_reference_grammar :
    (∀ (s : String) (f : Function), ValueText.function? s = some f ↔ ValueText.Calls s f) ∧
    (∀ s : String, ValueText.function? s = none ↔ ∀ f, ¬ ValueText.Calls s f) ∧
    (∀ (f : Function) (before name rest : List Char), (∀ c ∈ before, isSpacing c = true) →
      ValueText.InAnyCase f.word.toList name → ¬ ValueText.Ends rest →
      ValueText.function? (String.ofList (before ++ name ++ rest)) = none) ∧
    (∀ s : String, '(' ∈ s.toList → ')' ∉ s.toList → ValueText.function? s = none) ∧
    ∀ (casing : ValueText.LowerCasing) (f : Function) (s : List Char),
      casing.afterWord? f.word.toList s = ValueText.afterWord? f.word.toList s := by
  refine ⟨fun _ _ => ValueText.function?_eq_some, fun _ => ValueText.function?_eq_none, ?_, ?_, ?_⟩
  · intro f before name rest hbefore hname hrest
    rw [ValueText.function?_eq_none]
    exact fun g hg => hrest (ValueText.calls_of_name hbefore hname hg)
  · intro s hopen hclose
    rw [ValueText.function?_eq_none]
    exact fun f hf => hclose (hf.closes hopen)
  · intro casing f s
    exact casing.afterWord?_eq (fun _ => ValueText.mem_functionLetters) s

example : ∀ f ∈ Function.all, ValueText.function? f.call = some f := by decide

theorem function_reference_of_mixed_case :
    ValueText.function? "\tCurrent_USER (\n) " = some .currentUser ∧
    ValueText.function? "Now-" = none ∧ ValueText.function? "now (" = none ∧
    ValueText.LowerCasing.withSigns.afterWord? Function.now.word.toList "NOW()".toList =
      some ['(', ')'] := by
  obtain ⟨hread, -, hbehind, hunclosed, hcasing⟩ := function_reference_grammar
  refine ⟨?_, ?_, hunclosed "now (" (by decide) (by decide), ?_⟩
  · rw [hread]
    refine ⟨['\t'], "Current_USER".toList, " (\n) ".toList, List.all_eq_true.mp (by decide), ?_, ?_,
      rfl⟩
    · simp [ValueText.InAnyCase, Function.word]
    · rw [ValueText.ends_iff]
      decide
  · refine hbehind .now [] "Now".toList ['-'] nofun ?_ ?_
    · simp [ValueText.InAnyCase, Function.word]
    · rw [ValueText.ends_iff]
      decide
  · rw [hcasing]
    rfl

end EndpointPreview
