import EndpointPreview.Json.ValueReader
import EndpointPreview.Proofs.JsonSpelling
import EndpointPreview.Proofs.TextLaws
/-!
The readers take the texts of values: each gives the value back and leaves the rest that follows the
text.
-/

namespace EndpointPreview.Json

variable {α : Type} {s r : List Char}

theorem Reader.run_eq_ok {read : Reader α} {a : α} :
    read.run s = .ok (a, r) ↔ ∃ rest : Rest s, read s = .ok (a, rest) ∧ rest.val = r := by
  unfold Reader.run
  cases read s with
  | error e => simp [Except.map]
  | ok found =>
    obtain ⟨b, rest⟩ := found
    simp only [Except.map, Except.ok.injEq, Prod.mk.injEq]
    constructor
    · rintro ⟨rfl, rfl⟩
      exact ⟨rest, ⟨rfl, rfl⟩, rfl⟩
    · rintro ⟨rest', ⟨rfl, rfl⟩, rfl⟩
      exact ⟨rfl, rfl⟩

theorem Reader.run_map {β : Type} {read : Reader α} {a : α} (h : read.run s = .ok (a, r))
    (f : α → β) : (Reader.map f read).run s = .ok (f a, r) := by
  obtain ⟨rest, hread, rfl⟩ := run_eq_ok.mp h
  simp [Reader.run, Reader.map, hread, Except.map]

theorem skipSpacing_of_marks {c : Char} (h : Marks c s r) :
    ∃ hle, skipSpacing s = ⟨c :: r, hle⟩ :=
  ⟨h ▸ (skipSpacing s).property, Subtype.ext h⟩

theorem mark_of_marks {c : Char} (h : Marks c s r) :
    ∃ rest : Rest s, mark c s = .ok rest ∧ rest.val = r := by
  obtain ⟨hle, hs⟩ := skipSpacing_of_marks h
  refine ⟨⟨r, hle⟩, ?_, rfl⟩
  rw [mark, hs]
  simp

theorem run_another_close {close : Char} (h : Marks close s r) :
    (another close).run s = .ok (false, r) := by
  obtain ⟨hle, hs⟩ := skipSpacing_of_marks h
  simp [Reader.run, another, hs, Except.map]

theorem run_another_comma (close : Char) (hne : ',' ≠ close) (h : Marks ',' s r) :
    (another close).run s = .ok (true, r) := by
  obtain ⟨hle, hs⟩ := skipSpacing_of_marks h
  simp [Reader.run, another, hs, hne, Except.map]

theorem word_append (w r : List Char) :
    ∃ rest : Tail (w ++ r), word w (w ++ r) = .ok rest ∧ rest.val = r := by
  induction w with
  | nil => exact ⟨.all r, rfl, rfl⟩
  | cons c w ih =>
    obtain ⟨rest, hrest, hval⟩ := ih
    refine ⟨(rest.past c).tail, ?_, hval⟩
    simp only [List.cons_append, word, ↓reduceIte, hrest]
    rfl

/-! ### Strings -/

theorem run_textChar_escaped (c : Char) (r : List Char) :
    (textChar unicodeEscape).run (escaped c ++ r) = .ok (c, r) := by
  unfold escaped
  split
  · rfl
  · rfl
  · rfl
  · rfl
  · rfl
  · rfl
  · rfl
  · next hquote hbackslash _ _ _ _ _ =>
    split
    · next hcontrol =>
      -- Two hexadecimal digits give back every character below U+0020.
      have hdigits : ∀ n < 0x20,
          [hexDigit (n / 16), hexDigit n].all isHexDigit = true ∧
            ofDigits 16 ['0', '0', hexDigit (n / 16), hexDigit n] = n ∧
            isLowSurrogate n = false ∧ isHighSurrogate n = false := by decide
      obtain ⟨hhex, hvalue, hlow, hhigh⟩ := hdigits c.toNat hcontrol
      have hall : ['0', '0', hexDigit (c.toNat / 16), hexDigit c.toNat].all isHexDigit = true := by
        rw [List.all_cons, List.all_cons, hhex]
        decide
      simp [Reader.run, textChar, escape, unicodeEscape, fourHexDigits, hall, hvalue, hlow, hhigh,
        bind, Except.bind, pure, Except.pure, Except.map, Char.ofNat_toNat]
      rfl
    · next hcontrol =>
      have hne : c ≠ '\\' := fun he => hbackslash he
      simp [Reader.run, textChar, hne, hcontrol, Except.map]
      rfl

theorem textBody_eq (unicode : Reader Char) (c : Char) (r : List Char) :
    textBody unicode (c :: r) =
      if c = '"' then .ok ([], .afterFirst c r)
      else do
        let (d, r₁) ← textChar unicode (c :: r)
        let (ds, r₂) ← textBody unicode r₁.val
        return (d :: ds, r₁.and r₂) := by
  rw [textBody, Rest.recurse]

theorem escaped_eq_cons (c : Char) : ∃ d ds, escaped c = d :: ds ∧ d ≠ '"' := by
  unfold escaped
  split
  case h_8 hquote _ _ _ _ _ _ =>
    split
    · exact ⟨_, _, rfl, by decide⟩
    · exact ⟨c, [], rfl, fun he => hquote he⟩
  all_goals exact ⟨_, _, rfl, by decide⟩

theorem run_textBody_nil (unicode : Reader Char) :
    (textBody unicode).run ('"' :: r) = .ok ([], r) := by
  rw [Reader.run, textBody_eq, if_pos rfl]
  rfl

theorem run_textBody_cons {unicode : Reader Char} {c d : Char} {ds s₁ : List Char} (hc : c ≠ '"')
    (hchar : (textChar unicode).run (c :: s) = .ok (d, s₁))
    (hrest : (textBody unicode).run s₁ = .ok (ds, r)) :
    (textBody unicode).run (c :: s) = .ok (d :: ds, r) := by
  obtain ⟨r₁, hread, rfl⟩ := Reader.run_eq_ok.mp hchar
  obtain ⟨r₂, hbody, hval⟩ := Reader.run_eq_ok.mp hrest
  refine Reader.run_eq_ok.mpr ⟨r₁.and r₂, ?_, hval⟩
  simp only [textBody_eq, if_neg hc, hread, hbody, bind, Except.bind]
  rfl

theorem run_textBody (cs r : List Char) :
    (textBody unicodeEscape).run (cs.flatMap escaped ++ '"' :: r) = .ok (cs, r) := by
  induction cs with
  | nil => exact run_textBody_nil unicodeEscape
  | cons c cs ih =>
    have hchar := run_textChar_escaped c (cs.flatMap escaped ++ '"' :: r)
    rw [List.flatMap_cons, List.append_assoc]
    obtain ⟨d, ds, hescaped, hne⟩ := escaped_eq_cons c
    rw [hescaped, List.cons_append] at hchar ⊢
    exact run_textBody_cons hne hchar ih

theorem run_keptText (t : String) (r : List Char) :
    keptText.run (t.toList.flatMap escaped ++ '"' :: r) = .ok (t, r) := by
  have hbody := Reader.run_map (run_textBody t.toList r) String.ofList
  rwa [String.ofList_toList] at hbody

theorem run_key_of_body {body : Reader String} {k : String} {s₁ : List Char}
    (hquote : Marks '"' s s₁) (hbody : body.run s₁ = .ok (k, r)) :
    (key body).run s = .ok (k, r) := by
  obtain ⟨r₁, hmark, rfl⟩ := mark_of_marks hquote
  obtain ⟨r₂, htext, hval⟩ := Reader.run_eq_ok.mp hbody
  refine Reader.run_eq_ok.mpr ⟨r₁.and r₂, ?_, hval⟩
  simp only [key, hmark, htext, bind, Except.bind]
  rfl

theorem run_key {t : String} (h : SpellsText t s r) : (key keptText).run s = .ok (t, r) :=
  run_key_of_body h (run_keptText t r)

/-! ### Numbers -/

theorem ofDigits_toDigits (n : Nat) : ofDigits 10 (Nat.toDigits 10 n) = n := by
  have hdigit : ∀ d < 10, (digitValue? (Nat.digitChar d)).getD 0 = d := by decide
  induction n using Nat.strongRecOn with
  | ind n ih =>
    by_cases hn : n < 10
    · rw [Nat.toDigits_of_lt_base hn, ofDigits, List.foldl_cons, List.foldl_nil, hdigit n hn]
      omega
    · have hquotient : ofDigits 10 (Nat.toDigits 10 (n / 10)) = n / 10 := ih _ (by omega)
      rw [Nat.toDigits_of_base_le (by decide) (by omega), ofDigits, List.foldl_append,
        ← ofDigits, hquotient, List.foldl_cons, List.foldl_nil, hdigit _ (by omega)]
      omega

theorem eq_zero_of_toDigits {n : Nat} {ds : List Char} (h : Nat.toDigits 10 n = '0' :: ds) :
    n = 0 := by
  have hdigit : ∀ d < 10, Nat.digitChar d = '0' → d = 0 := by decide
  induction n using Nat.strongRecOn generalizing ds with
  | ind n ih =>
    by_cases hn : n < 10
    · rw [Nat.toDigits_of_lt_base hn] at h
      exact hdigit n hn (List.cons.inj h).1
    · rw [Nat.toDigits_of_base_le (by decide) (by omega)] at h
      obtain ⟨d, ds', hds⟩ := List.exists_cons_of_ne_nil (Nat.toDigits_ne_nil (b := 10) (n := n / 10))
      rw [hds, List.cons_append] at h
      rw [(List.cons.inj h).1] at hds
      have hquotient := ih (n / 10) (by omega) hds
      omega

theorem EndsNumber.stops (h : EndsNumber r) : Stops Char.isDigit r :=
  fun c hc => (h c hc).1

theorem run_digits {ds : List Char} (hds : AreDigits ds) (hstops : Stops Char.isDigit r)
    (atEnd : Fault) : (digits atEnd).run (ds ++ r) = .ok (ds, r) := by
  obtain ⟨hne, hall⟩ := hds
  obtain ⟨d, ds, rfl⟩ := List.exists_cons_of_ne_nil hne
  have htail : ∀ d ∈ ds, d.isDigit = true := fun d hd => hall d (List.mem_cons_of_mem _ hd)
  have hdrop : (ds ++ r).dropWhile Char.isDigit = r := hstops.dropWhile_append htail
  refine Reader.run_eq_ok.mpr ⟨(Tail.dropWhile Char.isDigit (ds ++ r)).past d, ?_, hdrop⟩
  simp only [List.cons_append, digits, hall d List.mem_cons_self, ↓reduceIte,
    hstops.takeWhile_append htail]

theorem areDigits_toDigits (n : Nat) : AreDigits (Nat.toDigits 10 n) :=
  ⟨Nat.toDigits_ne_nil, fun _ hd => Nat.isDigit_of_mem_toDigits (by decide) (by decide) hd⟩

theorem toDigits_eq_zero {n : Nat} (h : (Nat.toDigits 10 n).head? = some '0') :
    Nat.toDigits 10 n = ['0'] := by
  obtain ⟨ds, hds⟩ := List.head?_eq_some_iff.mp h
  rw [eq_zero_of_toDigits hds, Nat.toDigits_zero]

theorem run_wholePart {ds : List Char} (hds : AreDigits ds)
    (hzero : ds.head? = some '0' → ds = ['0']) (hstops : Stops Char.isDigit r) (atEnd : Fault) :
    (wholePart atEnd).run (ds ++ r) = .ok (ds, r) := by
  obtain ⟨rest, hdigits, hval⟩ := Reader.run_eq_ok.mp (run_digits hds hstops atEnd)
  refine Reader.run_eq_ok.mpr ⟨rest, ?_, hval⟩
  simp only [wholePart, hdigits, bind, Except.bind]
  split
  · cases hzero rfl
  · rfl

theorem EndsNumber.point_not_mem (h : EndsNumber r) : '.' ∉ r.head? :=
  fun hpoint => absurd (h '.' hpoint).2 (by decide)

theorem fractionPart_of_not_mem (hpoint : '.' ∉ s.head?) (atEnd : Fault) :
    fractionPart atEnd s = .ok (none, .all s) := by
  unfold fractionPart
  split
  · exact absurd rfl hpoint
  · rfl

theorem exponentPart_of_endsNumber (hend : EndsNumber s) (atEnd : Fault) :
    exponentPart atEnd s = .ok (none, .all s) := by
  cases s with
  | nil => rfl
  | cons c s =>
    have hc : ¬(c = 'e' ∨ c = 'E') := by
      rintro (rfl | rfl) <;> exact absurd (hend _ rfl).2 (by decide)
    rw [exponentPart, if_neg hc]

theorem minus_of_isDigit {d : Char} (hd : d.isDigit = true) (r : List Char) :
    minus (d :: r) = (false, .all (d :: r)) := by
  have hd : d ≠ '-' := by
    rintro rfl
    exact absurd hd (by decide)
  simp [minus, hd]

theorem run_numeral (n : Nat) (hend : EndsNumber r) (atEnd : Fault) :
    (numeral atEnd).run (Nat.toDigits 10 n ++ r) =
      .ok (⟨false, Nat.toDigits 10 n, none, none⟩, r) := by
  obtain ⟨d, ds, hds, hd⟩ := (areDigits_toDigits n).exists_cons
  have hwhole := run_wholePart (areDigits_toDigits n) toDigits_eq_zero hend.stops atEnd
  rw [hds, List.cons_append] at hwhole ⊢
  obtain ⟨rest, hwhole, hval⟩ := Reader.run_eq_ok.mp hwhole
  rw [← hval] at hend
  refine Reader.run_eq_ok.mpr ⟨rest, ?_, hval⟩
  unfold numeral
  rw [minus_of_isDigit hd]
  simp only [Tail.all, hwhole, fractionPart_of_not_mem hend.point_not_mem, exponentPart_of_endsNumber hend,
    bind, Except.bind]
  rfl

theorem Numeral.value?_of_isInteger {n : Nat} (hn : isInteger n false = true) :
    Numeral.value? ⟨false, Nat.toDigits 10 n, none, none⟩ = some (.integer n) := by
  simp only [Numeral.value?, ofDigits_toDigits]
  rw [if_pos ⟨trivial, trivial, hn⟩]
  rfl

theorem keptNumber_of_value? {x : Numeral} {n : Number} {rest : Rest s}
    (hnumeral : numeral .endOfText s = .ok (x, rest)) (hvalue : x.value? = some n) :
    keptNumber s = .ok (n, rest) := by
  simp only [keptNumber, hnumeral, hvalue, bind, Except.bind]
  rfl

theorem run_keptNumber {n : Nat} (hn : isInteger n false = true) (hend : EndsNumber r) :
    keptNumber.run (Nat.toDigits 10 n ++ r) = .ok (.integer n, r) := by
  obtain ⟨rest, hnumeral, hval⟩ := Reader.run_eq_ok.mp (run_numeral n hend .endOfText)
  exact Reader.run_eq_ok.mpr
    ⟨rest, keptNumber_of_value? hnumeral (Numeral.value?_of_isInteger hn), hval⟩

/-! ### The head of a value -/

theorem head_text {t : String} (h : SpellsText t s r) : head.run s = .ok (.text t, r) := by
  obtain ⟨hle, hs⟩ := skipSpacing_of_marks h
  obtain ⟨r₁, htext, hval⟩ := Reader.run_eq_ok.mp (run_keptText t r)
  refine Reader.run_eq_ok.mpr ⟨Rest.and ⟨_, hle⟩ r₁, ?_, hval⟩
  simp only [head, hs, htext, bind, Except.bind]
  rfl

theorem head_list (h : Marks '[' s r) : head.run s = .ok (.list, r) := by
  obtain ⟨hle, hs⟩ := skipSpacing_of_marks h
  refine Reader.run_eq_ok.mpr ⟨⟨r, hle⟩, ?_, rfl⟩
  simp only [head, hs]

theorem head_object (h : Marks '\x7b' s r) : head.run s = .ok (.object, r) := by
  obtain ⟨hle, hs⟩ := skipSpacing_of_marks h
  refine Reader.run_eq_ok.mpr ⟨⟨r, hle⟩, ?_, rfl⟩
  simp only [head, hs]

theorem head_word {c : Char} {w : List Char} {found : Found}
    (hcase : (c, w, found) ∈ [('n', ['u', 'l', 'l'], Found.null), ('t', ['r', 'u', 'e'], .bool true),
      ('f', ['a', 'l', 's', 'e'], .bool false)])
    (h : Marks c s (w ++ r)) : head.run s = .ok (found, r) := by
  obtain ⟨hle, hs⟩ := skipSpacing_of_marks h
  obtain ⟨r₁, hword, hval⟩ := word_append w r
  refine Reader.run_eq_ok.mpr ⟨Rest.andTail ⟨_, hle⟩ r₁, ?_, hval⟩
  simp only [List.mem_cons, Prod.mk.injEq, List.not_mem_nil, or_false] at hcase
  rcases hcase with ⟨rfl, rfl, rfl⟩ | ⟨rfl, rfl, rfl⟩ | ⟨rfl, rfl, rfl⟩ <;>
    simp only [head, hs, hword, bind, Except.bind] <;> rfl

theorem head_number {n : Nat} (hn : isInteger n false = true)
    (h : SpellsNumber (.integer n) s r) :
    head.run s = .ok (.number (.integer n), r) := by
  have hchars : numberChars (.integer n) = Nat.toDigits 10 n := by simp [numberChars, integerChars]
  obtain ⟨hs, hend⟩ := h
  rw [hchars] at hs
  obtain ⟨d, ds, hds, hd⟩ := (areDigits_toDigits n).exists_cons
  have hnumber := run_keptNumber hn hend
  rw [hds, List.cons_append] at hs hnumber
  obtain ⟨hle, hskip⟩ := skipSpacing_of_marks hs
  obtain ⟨r₁, hnumber, hval⟩ := Reader.run_eq_ok.mp hnumber
  refine Reader.run_eq_ok.mpr ⟨Tail.andRest ⟨_, hle⟩ r₁, ?_, hval⟩
  unfold head
  rw [hskip]
  split
  · next h => cases h
  · next c t hle' h =>
    cases h
    -- A digit begins none of the other values.
    split
    case h_7 =>
      simp only [hd, or_true, ↓reduceIte, hnumber, bind, Except.bind]
      rfl
    all_goals exact absurd hd (by decide)

/-! ### Lists -/

theorem items_eq (item : Reader α) (s : List Char) :
    items item s = do
      let (a, r₁) ← item s
      let (more, r₂) ← another ']' r₁.val
      if more then
        let (as, r₃) ← items item (r₁.and r₂).val
        return (a :: as, (r₁.and r₂).and r₃)
      else return ([a], r₁.and r₂) := by
  rw [items, Rest.recurse]

section

variable {item : Reader α} {a : α} {as : List α} {s₁ s₂ : List Char}

theorem run_items_last (hitem : item.run s = .ok (a, s₁)) (hclose : Marks ']' s₁ r) :
    (items item).run s = .ok ([a], r) := by
  obtain ⟨r₁, hread, rfl⟩ := Reader.run_eq_ok.mp hitem
  obtain ⟨r₂, hmore, hval⟩ := Reader.run_eq_ok.mp (run_another_close hclose)
  refine Reader.run_eq_ok.mpr ⟨r₁.and r₂, ?_, hval⟩
  rw [items_eq]
  simp only [hread, hmore, bind, Except.bind]
  rfl

theorem run_items_cons (hitem : item.run s = .ok (a, s₁)) (hcomma : Marks ',' s₁ s₂)
    (hrest : (items item).run s₂ = .ok (as, r)) : (items item).run s = .ok (a :: as, r) := by
  obtain ⟨r₁, hread, rfl⟩ := Reader.run_eq_ok.mp hitem
  obtain ⟨r₂, hmore, rfl⟩ := Reader.run_eq_ok.mp (run_another_comma ']' (by decide) hcomma)
  obtain ⟨r₃, hitems, hval⟩ := Reader.run_eq_ok.mp hrest
  refine Reader.run_eq_ok.mpr ⟨(r₁.and r₂).and r₃, ?_, hval⟩
  rw [items_eq]
  have hitems : items item (r₁.and r₂).val = .ok (as, r₃) := hitems
  simp only [hread, hmore, hitems, ↓reduceIte, bind, Except.bind]
  rfl

theorem run_listBody_nil (hclose : Marks ']' s r) : (listBody item).run s = .ok ([], r) := by
  obtain ⟨hle, hs⟩ := skipSpacing_of_marks hclose
  refine Reader.run_eq_ok.mpr ⟨⟨r, hle⟩, ?_, rfl⟩
  simp only [listBody, hs, ↓reduceIte]

theorem run_listBody_items {c : Char} {t : List Char} (hbegin : Marks c s t) (hne : c ≠ ']')
    (hitems : (items item).run (c :: t) = .ok (as, r)) : (listBody item).run s = .ok (as, r) := by
  obtain ⟨hle, hs⟩ := skipSpacing_of_marks hbegin
  obtain ⟨r₁, hitems, hval⟩ := Reader.run_eq_ok.mp hitems
  refine Reader.run_eq_ok.mpr ⟨Tail.andRest ⟨_, hle⟩ r₁, ?_, hval⟩
  simp only [listBody, hs, if_neg hne, hitems, bind, Except.bind]
  rfl

end

def Reader.Reads (read : Reader α) (t : Spelling) (a : α) : Prop :=
  ∀ ⦃s r⦄, t.spells s r → read.run s = .ok (a, r)

theorem Reader.Reads.map {β : Type} {read : Reader α} {t : Spelling} {a : α} (h : read.Reads t a)
    (f : α → β) : (Reader.map f read).Reads t (f a) :=
  fun _ _ ht => run_map (h ht) f

theorem run_items {item : Reader α} {t : Spelling} {ts : List Spelling} {a : α} {as : List α}
    (hread : item.Reads t a) (h : List.Forall₂ item.Reads ts as) {s₁ : List Char}
    (hfirst : t.spells s s₁) (hrest : SpelledItems ts s₁ r) :
    (items item).run s = .ok (a :: as, r) := by
  -- On the items after the first one, for every text that they may stand in.
  induction h generalizing t a s s₁ with
  | nil => cases hrest with | nil hclose => exact run_items_last (hread hfirst) hclose
  | cons hnext _ ih =>
    cases hrest with
    | cons hcomma hitem hrest => exact run_items_cons (hread hfirst) hcomma (ih hnext hitem hrest)

theorem run_listBody {item : Reader α} {ts : List Spelling} {as : List α}
    (h : List.Forall₂ item.Reads ts as) {s₀ : List Char} (hopen : Marks '[' s₀ s)
    (hlist : SpelledList ts s₀ r) : (listBody item).run s = .ok (as, r) := by
  cases h with
  | nil =>
    cases hlist with | nil hopen' hclose => ?_
    cases hopen.symm.trans hopen'
    exact run_listBody_nil hclose
  | @cons t a ts as hread h =>
    cases hlist with | cons hopen' hfirst hrest => ?_
    cases hopen.symm.trans hopen'
    obtain ⟨c, u, hbegin, hne, hfirst⟩ := t.begins hfirst
    exact run_listBody_items hbegin hne (run_items hread h hfirst hrest)

/-! ### Objects -/

theorem members_eq {σ : Type} (key : Reader String) (value : σ → String → Except Fault (Reader σ))
    (s : List Char) (g : σ) :
    members key value s g = do
      let (k, r₁) ← key s
      let read ← value g k
      let r₂ ← mark ':' r₁.val
      let (g', r₃) ← read r₂.val
      let (more, r₄) ← another '\x7d' r₃.val
      let r := ((r₁.and r₂).and r₃).and r₄
      if more then
        let (all, r') ← members key value r.val g'
        return (all, r.and r')
      else return (g', r) := by
  rw [members, Rest.recurse]

section

variable {σ : Type} {keyReader : Reader String} {value : σ → String → Except Fault (Reader σ)}
  {read : Reader σ} {g g' g'' : σ} {k : String} {s₁ s₂ s₃ s₄ : List Char}

theorem run_members_last (hkey : keyReader.run s = .ok (k, s₁)) (hvalue : value g k = .ok read)
    (hcolon : Marks ':' s₁ s₂) (hread : read.run s₂ = .ok (g', s₃)) (hclose : Marks '\x7d' s₃ r) :
    Reader.run (members keyReader value · g) s = .ok (g', r) := by
  obtain ⟨r₁, hk, rfl⟩ := Reader.run_eq_ok.mp hkey
  obtain ⟨r₂, hmark, rfl⟩ := mark_of_marks hcolon
  obtain ⟨r₃, hr, rfl⟩ := Reader.run_eq_ok.mp hread
  obtain ⟨r₄, hmore, hval⟩ := Reader.run_eq_ok.mp (run_another_close hclose)
  refine Reader.run_eq_ok.mpr ⟨((r₁.and r₂).and r₃).and r₄, ?_, hval⟩
  rw [members_eq]
  simp only [hk, hvalue, hmark, hr, hmore, bind, Except.bind]
  rfl

theorem run_members_cons (hkey : keyReader.run s = .ok (k, s₁)) (hvalue : value g k = .ok read)
    (hcolon : Marks ':' s₁ s₂) (hread : read.run s₂ = .ok (g', s₃)) (hcomma : Marks ',' s₃ s₄)
    (hrest : Reader.run (members keyReader value · g') s₄ = .ok (g'', r)) :
    Reader.run (members keyReader value · g) s = .ok (g'', r) := by
  obtain ⟨r₁, hk, rfl⟩ := Reader.run_eq_ok.mp hkey
  obtain ⟨r₂, hmark, rfl⟩ := mark_of_marks hcolon
  obtain ⟨r₃, hr, rfl⟩ := Reader.run_eq_ok.mp hread
  obtain ⟨r₄, hmore, rfl⟩ := Reader.run_eq_ok.mp (run_another_comma '\x7d' (by decide) hcomma)
  obtain ⟨r₅, hmembers, hval⟩ := Reader.run_eq_ok.mp hrest
  refine Reader.run_eq_ok.mpr ⟨(((r₁.and r₂).and r₃).and r₄).and r₅, ?_, hval⟩
  rw [members_eq]
  have hmembers : members keyReader value (((r₁.and r₂).and r₃).and r₄).val g' =
      .ok (g'', r₅) := hmembers
  simp only [hk, hvalue, hmark, hr, hmore, hmembers, bind, Except.bind]
  rfl

theorem run_objectBody_nil (hclose : Marks '\x7d' s r) :
    (objectBody keyReader value g).run s = .ok (g, r) := by
  obtain ⟨hle, hs⟩ := skipSpacing_of_marks hclose
  refine Reader.run_eq_ok.mpr ⟨⟨r, hle⟩, ?_, rfl⟩
  simp only [objectBody, hs, ↓reduceIte]

theorem run_objectBody_members (hquote : Marks '"' s s₁)
    (hmembers : Reader.run (members keyReader value · g) ('"' :: s₁) = .ok (g', r)) :
    (objectBody keyReader value g).run s = .ok (g', r) := by
  obtain ⟨hle, hs⟩ := skipSpacing_of_marks hquote
  obtain ⟨r₁, hmembers, hval⟩ := Reader.run_eq_ok.mp hmembers
  refine Reader.run_eq_ok.mpr ⟨Tail.andRest ⟨_, hle⟩ r₁, ?_, hval⟩
  simp only [objectBody, hs, hmembers, bind, Except.bind]
  rfl

end

/-- Reading the members of an object takes what has been gathered to what is gathered in the end. -/
inductive Gathers {σ : Type} (value : σ → String → Except Fault (Reader σ)) :
    σ → List (String × Spelling) → σ → Prop
  | nil {g : σ} : Gathers value g [] g
  | cons {g g' g'' : σ} {k : String} {t : Spelling} {given : List (String × Spelling)}
      {read : Reader σ} (hvalue : value g k = .ok read) (hread : read.Reads t g')
      (hrest : Gathers value g' given g'') : Gathers value g ((k, t) :: given) g''

section

variable {σ : Type} {value : σ → String → Except Fault (Reader σ)}

theorem run_members {g g' : σ} {k : String} {t : Spelling} {given : List (String × Spelling)}
    (hg : Gathers value g ((k, t) :: given) g') {s₁ s₂ s₃ : List Char} (hkey : SpellsText k s s₁)
    (hcolon : Marks ':' s₁ s₂) (hvalue : t.spells s₂ s₃) (hrest : SpelledMembers given s₃ r) :
    Reader.run (members (key keptText) value · g) s = .ok (g', r) := by
  induction given generalizing g k t s s₁ s₂ s₃ with
  | nil =>
    cases hrest with | nil hclose => ?_
    cases hg with | cons hfound hread hg => ?_
    cases hg
    exact run_members_last (run_key hkey) hfound hcolon (hread hvalue) hclose
  | cons next given ih =>
    cases hrest with | cons hcomma hkey' hcolon' hvalue' hrest => ?_
    cases hg with | cons hfound hread hg => ?_
    exact run_members_cons (run_key hkey) hfound hcolon (hread hvalue) hcomma
      (ih hg hkey' hcolon' hvalue' hrest)

theorem run_objectBody {g g' : σ} {given : List (String × Spelling)} (hg : Gathers value g given g')
    {s₀ : List Char} (hopen : Marks '\x7b' s₀ s) (h : SpelledObject given s₀ r) :
    (objectBody (key keptText) value g).run s = .ok (g', r) := by
  cases h with
  | nil hopen' hclose =>
    cases hopen.symm.trans hopen'
    cases hg
    exact run_objectBody_nil hclose
  | cons hopen' hkey hcolon hvalue hrest =>
    cases hopen.symm.trans hopen'
    have hkey' := (dropWhile_eq_of_marks hkey).symm.trans hkey
    exact run_objectBody_members hkey (run_members hg hkey' hcolon hvalue hrest)

end

end EndpointPreview.Json
