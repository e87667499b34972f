import EndpointPreview.Proofs.JsonReading
/-!
Whatever JSON text a value has, it can be read past: neither half a surrogate pair, nor a number
that is too large, nor any depth of nesting is a fault in a value that is not kept.
-/

namespace EndpointPreview.Json

variable {s r : List Char}

theorem run_fourHexDigits {a b c d : Char} (h : [a, b, c, d].all isHexDigit = true) :
    fourHexDigits.run (a :: b :: c :: d :: r) = .ok (ofDigits 16 [a, b, c, d], r) := by
  refine Reader.run_eq_ok.mpr ⟨_, if_pos h, rfl⟩

theorem AnyText.run_textBody (h : AnyText s r) {unicode : Reader Char}
    (hunicode : ∀ {a b c d r}, [a, b, c, d].all isHexDigit = true →
      ∃ e, unicode.run (a :: b :: c :: d :: r) = .ok (e, r)) :
    ∃ ds, (textBody unicode).run s = .ok (ds, r) := by
  induction h with
  | nil => exact ⟨[], run_textBody_nil unicode⟩
  | @plain c s r hc hcontrol _ ih =>
    obtain ⟨ds, hds⟩ := ih
    rw [List.mem_pair, not_or] at hc
    obtain ⟨hquote, hbackslash⟩ := hc
    refine ⟨c :: ds, run_textBody_cons hquote ?_ hds⟩
    refine Reader.run_eq_ok.mpr ⟨.afterFirst c s, ?_, rfl⟩
    rw [textChar, if_neg hbackslash, if_neg (Nat.not_lt.mpr hcontrol)]
  | @short c s r hc _ ih =>
    obtain ⟨ds, hds⟩ := ih
    have hshort : ['"', '\\', '/', 'b', 'f', 'n', 'r', 't'].all
        (fun c => c ≠ 'u' ∧ (shortEscape? c).isSome = true) = true := by decide
    obtain ⟨hu, hsome⟩ := of_decide_eq_true (List.all_eq_true.mp hshort c hc)
    obtain ⟨d, hd⟩ := Option.isSome_iff_exists.mp hsome
    refine ⟨d :: ds, run_textBody_cons (by decide) ?_ hds⟩
    refine Reader.run_eq_ok.mpr ⟨(Rest.afterFirst c s).past '\\', ?_, rfl⟩
    simp only [textChar, ↓reduceIte, escape, if_neg hu, hd, bind, Except.bind]
    rfl
  | unicode hhex _ ih =>
    obtain ⟨ds, hds⟩ := ih
    obtain ⟨e, he⟩ := hunicode hhex
    obtain ⟨r₁, hread, hval⟩ := Reader.run_eq_ok.mp he
    refine ⟨e :: ds, run_textBody_cons (by decide) ?_ hds⟩
    refine Reader.run_eq_ok.mpr ⟨(r₁.past 'u').past '\\', ?_, hval⟩
    simp only [textChar, ↓reduceIte, escape, hread, bind, Except.bind]
    rfl

theorem AnyText.run_skippedText (h : AnyText s r) : ∃ t, skippedText.run s = .ok (t, r) := by
  have hunicode : ∀ {a b c d r}, [a, b, c, d].all isHexDigit = true →
      ∃ e, (Reader.map (fun _ => '?') fourHexDigits).run (a :: b :: c :: d :: r) = .ok (e, r) :=
    fun hhex => ⟨'?', Reader.run_map (run_fourHexDigits hhex) fun _ => '?'⟩
  obtain ⟨ds, hds⟩ := h.run_textBody hunicode
  exact ⟨_, Reader.run_map hds String.ofList⟩

theorem AnyText.run_key {s₁ : List Char} (hquote : Marks '"' s s₁) (h : AnyText s₁ r) :
    ∃ k, (key skippedText).run s = .ok (k, r) := by
  obtain ⟨k, htext⟩ := h.run_skippedText
  exact ⟨k, run_key_of_body hquote htext⟩

theorem IsExponent.stops {exponent : List Char} (h : IsExponent exponent) (hend : EndsNumber r) :
    Stops Char.isDigit (exponent ++ r) := by
  cases h with
  | absent => exact hend.stops
  | present he _ _ =>
    refine stops_cons ?_ _
    rcases he with rfl | rfl <;> rfl

theorem IsFraction.stops {fraction : List Char} (h : IsFraction fraction)
    (hr : Stops Char.isDigit r) : Stops Char.isDigit (fraction ++ r) := by
  cases h with
  | absent => exact hr
  | present _ => exact stops_cons rfl _

theorem run_minus {sign whole : List Char} (hsign : sign ∈ [[], ['-']]) (hwhole : AreDigits whole)
    (r : List Char) :
    ∃ negative t, minus (sign ++ (whole ++ r)) = (negative, t) ∧ t.val = whole ++ r := by
  rcases List.mem_cons.mp hsign with rfl | hsign
  · obtain ⟨d, ds, rfl, hd⟩ := hwhole.exists_cons
    exact ⟨false, .all _, minus_of_isDigit hd _, rfl⟩
  · obtain rfl := List.mem_singleton.mp hsign
    exact ⟨true, _, rfl, rfl⟩

theorem run_exponentSign {sign ds : List Char} (hsign : sign ∈ [[], ['+'], ['-']])
    (hds : AreDigits ds) (r : List Char) :
    ∃ negative t, exponentSign (sign ++ (ds ++ r)) = (negative, t) ∧ t.val = ds ++ r := by
  rcases List.mem_cons.mp hsign with rfl | hsign
  · obtain ⟨d, ds, rfl, hd⟩ := hds.exists_cons
    have hne : d ≠ '+' := by
      rintro rfl
      exact absurd hd (by decide)
    refine ⟨false, .all _, ?_, rfl⟩
    rw [List.nil_append, List.cons_append, ← minus_of_isDigit hd]
    simp [exponentSign, hne]
  · rcases List.mem_cons.mp hsign with rfl | hsign
    · exact ⟨false, _, rfl, rfl⟩
    · obtain rfl := List.mem_singleton.mp hsign
      exact ⟨true, _, rfl, rfl⟩

theorem IsFraction.run {fraction : List Char} (h : IsFraction fraction) (hs : s = fraction ++ r)
    (hstops : Stops Char.isDigit r) (hpoint : '.' ∉ r.head?) (atEnd : Fault) :
    ∃ f t, fractionPart atEnd s = .ok (f, t) ∧ t.val = r := by
  subst hs
  cases h with
  | absent => exact ⟨none, .all r, fractionPart_of_not_mem hpoint atEnd, rfl⟩
  | @present ds hds =>
    obtain ⟨r₁, hdigits, hval⟩ := Reader.run_eq_ok.mp (run_digits hds hstops atEnd)
    refine ⟨some ds, (r₁.past '.').tail, ?_, hval⟩
    simp only [List.cons_append, fractionPart, hdigits, bind, Except.bind]
    rfl

theorem IsExponent.run {exponent : List Char} (h : IsExponent exponent) (hs : s = exponent ++ r)
    (hend : EndsNumber r) (atEnd : Fault) :
    ∃ e t, exponentPart atEnd s = .ok (e, t) ∧ t.val = r := by
  subst hs
  cases h with
  | absent => exact ⟨none, .all r, exponentPart_of_endsNumber hend atEnd, rfl⟩
  | @present e sign ds he hsign hds =>
    obtain ⟨negative, t, hminus, ht⟩ := run_exponentSign hsign hds r
    have hdigits := run_digits hds hend.stops atEnd
    rw [← ht] at hdigits
    obtain ⟨r₁, hread, hval⟩ := Reader.run_eq_ok.mp hdigits
    rw [List.cons_append, List.append_assoc]
    refine ⟨some (if negative then -(ofDigits 10 ds : Int) else ofDigits 10 ds),
      ((t.andRest r₁).past e).tail, ?_, hval⟩
    rw [exponentPart, if_pos he, hminus]
    simp only [hread, bind, Except.bind]
    rfl

theorem IsExponent.point_not_mem {exponent : List Char} (h : IsExponent exponent)
    (hend : EndsNumber r) : '.' ∉ (exponent ++ r).head? := by
  cases h with
  | absent => exact hend.point_not_mem
  | present he _ _ =>
    rintro ⟨⟩
    exact absurd he (by decide)

theorem IsNumber.run_numeral {n : List Char} (h : IsNumber n) (hend : EndsNumber r)
    (atEnd : Fault) : ∃ x, (numeral atEnd).run (n ++ r) = .ok (x, r) := by
  cases h with | @mk sign whole fraction exponent hsign hwhole hzero hfraction hexponent => ?_
  have hstops := hexponent.stops hend
  simp only [List.append_assoc]
  obtain ⟨negative, t, hminus, ht⟩ := run_minus hsign hwhole (fraction ++ (exponent ++ r))
  have hnumber := run_wholePart hwhole hzero (hfraction.stops hstops) atEnd
  rw [← ht] at hnumber
  obtain ⟨r₁, hread, hr₁⟩ := Reader.run_eq_ok.mp hnumber
  obtain ⟨f, t₁, hf, ht₁⟩ := hfraction.run hr₁ hstops (hexponent.point_not_mem hend) atEnd
  obtain ⟨e, t₂, he, ht₂⟩ := hexponent.run ht₁ hend atEnd
  refine ⟨⟨negative, whole, f, e⟩, Reader.run_eq_ok.mpr
    ⟨((t.andRest r₁).andTail t₁).andTail t₂, ?_, ht₂⟩⟩
  unfold numeral
  rw [hminus]
  simp only [hread, hf, he, bind, Except.bind]
  rfl

theorem skipNested_word {c : Char} {w : List Char} (depth : Nat)
    (hw : (c, w) ∈ [('n', ['u', 'l', 'l']), ('t', ['r', 'u', 'e']), ('f', ['a', 'l', 's', 'e'])])
    (h : Marks c s (w ++ r)) : (skipNested (depth + 1)).run s = .ok ((), r) := by
  obtain ⟨hle, hs⟩ := skipSpacing_of_marks h
  obtain ⟨r₁, hword, hval⟩ := word_append w r
  refine Reader.run_eq_ok.mpr ⟨Rest.andTail ⟨_, hle⟩ r₁, ?_, hval⟩
  simp only [List.mem_cons, Prod.mk.injEq, List.not_mem_nil, or_false] at hw
  unfold skipNested
  rw [hs]
  rcases hw with ⟨rfl, rfl⟩ | ⟨rfl, rfl⟩ | ⟨rfl, rfl⟩ <;>
    simp only [hword, bind, Except.bind] <;> rfl

theorem skipNested_number {c : Char} {t : List Char} {x : Numeral} (depth : Nat)
    (hc : c = '-' ∨ c.isDigit = true) (h : Marks c s t)
    (hnumber : (numeral .malformed).run (c :: t) = .ok (x, r)) :
    (skipNested (depth + 1)).run s = .ok ((), r) := by
  obtain ⟨hle, hs⟩ := skipSpacing_of_marks h
  obtain ⟨r₁, hread, hval⟩ := Reader.run_eq_ok.mp (Reader.run_map hnumber fun _ => ())
  refine Reader.run_eq_ok.mpr ⟨Tail.andRest ⟨_, hle⟩ r₁, ?_, hval⟩
  have hread : skippedNumber (c :: t) = .ok ((), r₁) := hread
  unfold skipNested
  rw [hs]
  dsimp only
  -- Neither a minus nor a digit begins any of the other values.
  split
  case h_7 =>
    simp only [if_pos hc, hread, bind, Except.bind]
    rfl
  all_goals exact absurd hc (by decide)

theorem skipNested_text {s₁ : List Char} {k : String} (depth : Nat) (h : Marks '"' s s₁)
    (htext : skippedText.run s₁ = .ok (k, r)) : (skipNested (depth + 1)).run s = .ok ((), r) := by
  obtain ⟨hle, hs⟩ := skipSpacing_of_marks h
  obtain ⟨r₁, hread, hval⟩ := Reader.run_eq_ok.mp htext
  refine Reader.run_eq_ok.mpr ⟨Rest.and ⟨_, hle⟩ r₁, ?_, hval⟩
  unfold skipNested
  rw [hs]
  simp only [hread, bind, Except.bind]
  rfl

theorem skipNested_list {s₁ : List Char} {us : List Unit} {depth : Nat} (h : Marks '[' s s₁)
    (hbody : (listBody (skipNested depth)).run s₁ = .ok (us, r)) :
    (skipNested (depth + 1)).run s = .ok ((), r) := by
  obtain ⟨hle, hs⟩ := skipSpacing_of_marks h
  obtain ⟨r₁, hread, hval⟩ := Reader.run_eq_ok.mp hbody
  refine Reader.run_eq_ok.mpr ⟨Rest.and ⟨_, hle⟩ r₁, ?_, hval⟩
  unfold skipNested
  rw [hs]
  simp only [hread, bind, Except.bind]
  rfl

theorem skipNested_object {s₁ : List Char} {depth : Nat} (h : Marks '\x7b' s s₁)
    (hbody : (objectBody (key skippedText) (fun _ _ => .ok (skipNested depth)) ()).run s₁ =
      .ok ((), r)) : (skipNested (depth + 1)).run s = .ok ((), r) := by
  obtain ⟨hle, hs⟩ := skipSpacing_of_marks h
  obtain ⟨r₁, hread, hval⟩ := Reader.run_eq_ok.mp hbody
  refine Reader.run_eq_ok.mpr ⟨Rest.and ⟨_, hle⟩ r₁, ?_, hval⟩
  unfold skipNested
  rw [hs]
  simp only [hread, bind, Except.bind]
  rfl

theorem Marks.length_lt {c : Char} (h : Marks c s r) : r.length < s.length := by
  have hle := (List.dropWhile_suffix Text.isSpacing (l := s)).length_le
  rwa [h] at hle

theorem Reader.length_lt {α : Type} {read : Reader α} {a : α} (h : read.run s = .ok (a, r)) :
    r.length < s.length := by
  obtain ⟨rest, -, rfl⟩ := run_eq_ok.mp h
  exact rest.property

theorem AnyItems.begins (h : AnyItems s r) : ∃ c t, Marks c s t ∧ c ≠ ']' ∧ AnyItems (c :: t) r := by
  cases h with
  | last hitem hclose =>
    obtain ⟨c, t, hc, hne, hitem⟩ := Spelling.any.begins hitem
    exact ⟨c, t, hc, hne, .last hitem hclose⟩
  | cons hitem hcomma hitems =>
    obtain ⟨c, t, hc, hne, hitem⟩ := Spelling.any.begins hitem
    exact ⟨c, t, hc, hne, .cons hitem hcomma hitems⟩

theorem AnyMembers.begins (h : AnyMembers s r) : ∃ t, Marks '"' s t ∧ AnyMembers ('"' :: t) r := by
  cases h with
  | last hquote hkey hcolon hvalue hclose =>
    exact ⟨_, hquote, .last (marks_cons (by decide) _) hkey hcolon hvalue hclose⟩
  | cons hquote hkey hcolon hvalue hcomma hmembers =>
    exact ⟨_, hquote, .cons (marks_cons (by decide) _) hkey hcolon hvalue hcomma hmembers⟩

section

variable {skipItem : Reader Unit} {n : Nat}
  (hskip : ∀ {s r}, s.length < n → AnyValue s r → skipItem.run s = .ok ((), r))

include hskip

theorem AnyItems.run : ∀ {s r : List Char}, AnyItems s r → s.length < n →
    ∃ us, (items skipItem).run s = .ok (us, r)
  | _, _, .last hitem hclose, hs => ⟨_, run_items_last (hskip hs hitem) hclose⟩
  | _, _, .cons hitem hcomma hitems, hs => by
    have hread := hskip hs hitem
    have hlength := hcomma.length_lt.trans (Reader.length_lt hread)
    obtain ⟨us, hus⟩ := AnyItems.run hitems (hlength.trans hs)
    exact ⟨_, run_items_cons hread hcomma hus⟩

theorem AnyMembers.run : ∀ {s r : List Char}, AnyMembers s r → s.length < n →
    Reader.run (members (key skippedText) (fun _ _ => .ok skipItem) · ()) s = .ok ((), r)
  | _, _, .last hquote hkey hcolon hvalue hclose, hs => by
    obtain ⟨k, hk⟩ := hkey.run_key hquote
    have hlength := hcolon.length_lt.trans (Reader.length_lt hk)
    exact run_members_last hk rfl hcolon (hskip (hlength.trans hs) hvalue) hclose
  | _, _, .cons hquote hkey hcolon hvalue hcomma hmembers, hs => by
    obtain ⟨k, hk⟩ := hkey.run_key hquote
    have hlength := (hcolon.length_lt.trans (Reader.length_lt hk)).trans hs
    have hread := hskip hlength hvalue
    have hrest := (hcomma.length_lt.trans (Reader.length_lt hread)).trans hlength
    exact run_members_cons hk rfl hcolon hread hcomma (AnyMembers.run hmembers hrest)

end

theorem AnyValue.run_skipNested {depth : Nat} (hs : s.length < depth) (h : AnyValue s r) :
    (skipNested depth).run s = .ok ((), r) := by
  -- On the depth: what is nested is shorter than the text around it.
  induction depth generalizing s r with
  | zero => exact absurd hs (Nat.not_lt_zero _)
  | succ depth ih =>
    have hinner : ∀ {c s₁}, Marks c s s₁ → s₁.length < depth :=
      fun h => Nat.lt_of_lt_of_le h.length_lt (Nat.le_of_lt_succ hs)
    cases h with
    | word hw h => exact skipNested_word depth hw h
    | number hn h hend =>
      obtain ⟨c, t, rfl, hc⟩ := hn.exists_cons
      obtain ⟨x, hx⟩ := hn.run_numeral hend .malformed
      exact skipNested_number depth hc h hx
    | text hquote htext =>
      obtain ⟨k, hk⟩ := htext.run_skippedText
      exact skipNested_text depth hquote hk
    | emptyList hopen hclose => exact skipNested_list hopen (run_listBody_nil hclose)
    | list hopen hitems =>
      obtain ⟨c, t, hc, hne, hitems⟩ := hitems.begins
      have hlength : (c :: t).length < depth :=
        Nat.lt_of_le_of_lt hc.length_lt (hinner hopen)
      obtain ⟨us, hus⟩ := AnyItems.run ih hitems hlength
      exact skipNested_list hopen (run_listBody_items hc hne hus)
    | emptyObject hopen hclose => exact skipNested_object hopen (run_objectBody_nil hclose)
    | object hopen hmembers =>
      obtain ⟨t, hquote, hmembers⟩ := hmembers.begins
      have hlength : ('"' :: t).length < depth :=
        Nat.lt_of_le_of_lt hquote.length_lt (hinner hopen)
      have hbody := AnyMembers.run ih hmembers hlength
      exact skipNested_object hopen (run_objectBody_members hquote hbody)

theorem skip_reads_any : skip.Reads .any () :=
  fun s _ h => AnyValue.run_skipNested (Nat.lt_succ_self s.length) h

end EndpointPreview.Json
