import EndpointPreview.Proofs.FilterRuns
import EndpointPreview.Proofs.UrlItems
/-!
A quoted literal in the example URL. The URL shows what stands between the quotes as it stands
there, so the text that the literal means is shown unless it has a quote.
-/

namespace EndpointPreview

open Text

namespace ValueText

def quotedLiteral (s : String) : String :=
  String.ofList ('\'' :: (doubled s.toList ++ ['\'']))

theorem toList_quotedLiteral (s : String) :
    (quotedLiteral s).toList = '\'' :: (doubled s.toList ++ ['\'']) :=
  String.toList_ofList

theorem quoted?_quotedLiteral (s : String) :
    quoted? (quotedLiteral s).toList = some ((quotedLiteral s).toList, []) := by
  rw [toList_quotedLiteral, quoted?, quotedRest_doubled s.toList (r := []) (by simp)]
  rfl

theorem filled_quotedLiteral (s : String) : filled (quotedLiteral s) = some (quotedLiteral s) := by
  have htrim : trim (quotedLiteral s) = quotedLiteral s := by
    rw [trim, trimChars_quoted (quoted?_quotedLiteral s), String.ofList_toList]
  refine filled_eq_some.mpr ⟨?_, htrim⟩
  rw [blank, toList_quotedLiteral, List.all_cons]
  rfl

theorem literals_quotedLiteral (s : String) : literals (quotedLiteral s) = [quotedLiteral s] := by
  have hskip : skipSpacing (quotedLiteral s).toList = (quotedLiteral s).toList := by
    rw [toList_quotedLiteral]
    rfl
  have hitem : item (quotedLiteral s).toList = ((quotedLiteral s).toList, []) := by
    rw [item_of_quoted (by rw [hskip, quoted?_quotedLiteral])]
    rfl
  have hitems : items? (quotedLiteral s).toList = some [(quotedLiteral s).toList] := by
    rw [items?_eq, hitem]
  have hne : (quotedLiteral s).toList ≠ [] := by
    rw [toList_quotedLiteral]
    exact List.cons_ne_nil _ _
  simp [literals, hitems, hne]

theorem length_doubled (cs : List Char) : (doubled cs).length = cs.length + cs.count '\'' := by
  induction cs with
  | nil => rfl
  | cons c cs ih =>
    by_cases hc : c = '\''
    · subst hc
      rw [doubled_cons_quote, List.length_cons, List.length_cons, List.length_cons,
        List.count_cons_self, ih]
      omega
    · rw [doubled_cons hc, List.length_cons, List.length_cons, List.count_cons_of_ne hc, ih]
      omega

theorem doubled_eq_self_iff (cs : List Char) : doubled cs = cs ↔ '\'' ∉ cs := by
  constructor
  · intro h
    have hlength := length_doubled cs
    rw [h] at hlength
    exact List.count_eq_zero.mp (by omega)
  · intro h
    induction cs with
    | nil => rfl
    | cons c cs ih =>
      rw [List.mem_cons, not_or] at h
      rw [doubled_cons (Ne.symm h.1), ih h.2]

end ValueText

open ValueText

theorem unquoted_quotedLiteral (s : String) :
    unquoted (quotedLiteral s) = String.ofList (doubled s.toList) := by
  simp [unquoted, toList_quotedLiteral]

theorem checkValue_quotedLiteral (declared : List String) (part : Part) (s : String) :
    checkValue declared .static part (quotedLiteral s) = .pass (.literal (quotedLiteral s)) := by
  rw [checkValue, filled_quotedLiteral]

namespace Config

theorem Filter.values_of_quotedLiteral {declared : List String} {f : Filter} {s : String}
    {operator : Operator} {operand : Operand} (h : f.HasOperand declared operator operand)
    (hsource : f.source = .static) (hvalue : f.value = quotedLiteral s)
    (harity : operator.arity = .single ∨ operator.arity = .list) :
    operand.values = [.literal (quotedLiteral s)] := by
  cases h with
  | none ha => rcases harity with h | h <;> cases ha.symm.trans h
  | range ha _ _ => rcases harity with h | h <;> cases ha.symm.trans h
  | single ha hv =>
    rw [hsource, hvalue, checkValue_quotedLiteral] at hv
    cases hv
    rfl
  | literals ha _ =>
    rw [hvalue, literals_quotedLiteral]
    rfl
  | reference _ hs _ => exact absurd hsource hs

variable {c : Config} {survivor : Survivor}

theorem filterPair_of_survivor (hfirst : c.survivors.head? = some survivor)
    (hparam : survivor.comparison.usesParam = false) :
    c.resolve.endpoint.filterPair = some survivor.comparison.pair := by
  obtain ⟨rest, hrest⟩ := List.head?_eq_some_iff.mp hfirst
  rw [Endpoint.filterPair, c.filter_comparisons, hrest, List.map_cons,
    List.find?_cons_of_pos (by rw [hparam]; rfl)]
  rfl

end Config

/-- The URL shows the text between the quotes of a literal, which is the text that the literal means
exactly if there is no quote in it. -/
theorem quoted_value_in_url (c : Config) (survivor : Survivor) (operator : Operator) (s : String)
    (hfirst : c.survivors.head? = some survivor)
    (hoperator : survivor.filter.operator = some operator)
    (harity : operator.arity = .single ∨ operator.arity = .list)
    (hsource : survivor.filter.source = .static)
    (hvalue : survivor.filter.value = quotedLiteral s) :
    ∃ key value, c.resolve.endpoint.filterPair = some (key, value) ∧
      c.resolve.endpoint.pairs.getLast? = some (key, value) ∧
      value = String.ofList (doubled s.toList) ∧ (value = s ↔ '\'' ∉ s.toList) := by
  obtain ⟨ho, -, hoperand⟩ := Config.describes_of_survivor (List.mem_of_mem_head? hfirst)
  rw [ho] at hoperator
  cases hoperator
  have hvalues := Config.Filter.values_of_quotedLiteral
    (Config.Filter.hasOperand_of_checkOperand hoperand) hsource hvalue harity
  have hparam : survivor.comparison.usesParam = false := by
    rw [Comparison.usesParam, hvalues]
    rfl
  have hpair := Config.filterPair_of_survivor hfirst hparam
  have htext : survivor.comparison.operand.urlText = String.ofList (doubled s.toList) := by
    rw [Operand.urlText_eq (by rw [hvalues]; exact List.cons_ne_nil _ _), hvalues, List.map_singleton,
      String.intercalate_singleton, Value.urlText, unquoted_quotedLiteral]
  refine ⟨_, _, hpair, ?_, htext, ?_⟩
  · rw [Endpoint.pairs, hpair]
    exact List.getLast?_concat
  · rw [htext, ← doubled_eq_self_iff, ← String.toList_inj, String.toList_ofList]

def phraseFilter : Config.Filter where
  column := "title"
  operator := some .like
  value := quotedLiteral " a, \"b\" "

def phraseConfig : Config where
  filters := [{ column := "1=1", operator := some .eq, value := "x" }, phraseFilter]

theorem phraseConfig_value_in_url :
    ∃ comparison, phraseConfig.survivors.head? = some ⟨phraseFilter, comparison⟩ ∧
      ∃ key value, phraseConfig.resolve.endpoint.filterPair = some (key, value) ∧
        value = " a, \"b\" " := by
  have hfirst : phraseConfig.survivors.head? = some ⟨phraseFilter,
      ⟨⟨"title", by decide⟩, .like, .single (.literal (quotedLiteral " a, \"b\" "))⟩⟩ := rfl
  obtain ⟨key, value, hpair, -, -, hvalue⟩ :=
    quoted_value_in_url phraseConfig _ .like " a, \"b\" " hfirst rfl (.inl rfl) rfl rfl
  exact ⟨_, hfirst, key, value, hpair, hvalue.mpr (by decide)⟩

def apostropheConfig : Config where
  filters := [{ column := "name", operator := some .eq, value := quotedLiteral "it's" }]

theorem apostrophe_stays_doubled :
    apostropheConfig.filters.map (·.value) = ["'it''s'"] ∧
      apostropheConfig.resolve.endpoint.pairs = [("name", "it''s")] ∧ "it''s" ≠ "it's" := by
  decide +kernel

end EndpointPreview
