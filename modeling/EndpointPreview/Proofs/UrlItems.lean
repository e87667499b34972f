import EndpointPreview.Proofs.UrlReading
/-!
Items of a list in the example URL. They are joined by commas before they are encoded, and commas
are not encoded, so a value that is cut at its commas gives back the items as long as none of them
has a comma of its own.
-/

namespace EndpointPreview

namespace Text

theorem splitOn_flatMap {sep : Char} {f : Char → List Char} (hsep : f sep = [sep])
    (hother : ∀ c, c ≠ sep → sep ∉ f c) (s : List Char) :
    (s.flatMap f).splitOn sep = (s.splitOn sep).map (·.flatMap f) := by
  have hwhole : ∀ s : List Char, sep ∉ s →
      (s.flatMap f).splitOn sep = (s.splitOn sep).map (·.flatMap f) := by
    intro s hs
    have hencoded : sep ∉ s.flatMap f := by
      intro hmem
      obtain ⟨c, hc, h⟩ := List.mem_flatMap.mp hmem
      exact hother c (fun he => hs (he ▸ hc)) h
    rw [List.splitOn_eq_singleton hs, List.splitOn_eq_singleton hencoded, List.map_singleton]
  induction s using cut_induction sep with
  | whole s hs => exact hwhole s hs
  | cut first rest hfirst ih =>
    rw [List.flatMap_append, List.flatMap_cons, hsep, List.singleton_append,
      List.splitOn_append_cons_self, List.splitOn_append_cons_self, List.map_append,
      hwhole first hfirst, ih]

theorem splitOn_intercalate_flatMap {sep : Char} {ls : List (List Char)} (h : ls ≠ []) :
    ([sep].intercalate ls).splitOn sep = ls.flatMap (·.splitOn sep) := by
  induction ls with
  | nil => exact absurd rfl h
  | cons l ls ih =>
    cases ls with
    | nil => rw [List.intercalate_singleton, List.flatMap_singleton]
    | cons next ls =>
      rw [List.intercalate_cons_cons, List.append_assoc, List.singleton_append,
        List.splitOn_append_cons_self, ih (List.cons_ne_nil _ _)]
      exact List.flatMap_cons.symm

theorem pieces_intercalate {items : List String} (h : items ≠ []) :
    pieces ',' (",".intercalate items) = items.flatMap (pieces ',') := by
  have hcomma : ",".toList = [','] := rfl
  rw [pieces, String.toList_intercalate, hcomma, splitOn_intercalate_flatMap (by simpa using h),
    List.map_flatMap, List.flatMap_map]
  rfl

theorem length_pieces_pos (s : String) : 0 < (pieces ',' s).length := by
  rw [pieces, List.length_map]
  exact List.length_pos_of_ne_nil (List.splitOn_ne_nil ',' s.toList)

theorem pieces_eq_self {s : String} (h : ',' ∉ s.toList) : pieces ',' s = [s] := by
  rw [pieces, List.splitOn_eq_singleton h, List.map_singleton, String.ofList_toList]

theorem one_lt_length_pieces {s : String} (h : ',' ∈ s.toList) : 1 < (pieces ',' s).length := by
  obtain ⟨first, rest, hs, -⟩ := List.eq_append_cons_of_mem h
  have hfirst := List.length_pos_of_ne_nil (List.splitOn_ne_nil ',' first)
  have hrest := List.length_pos_of_ne_nil (List.splitOn_ne_nil ',' rest)
  rw [pieces, hs, List.splitOn_append_cons_self, List.length_map, List.length_append]
  omega

theorem length_le_flatMap_pieces (items : List String) :
    items.length ≤ (items.flatMap (pieces ',')).length := by
  induction items with
  | nil => exact Nat.le_refl 0
  | cons item items ih =>
    have hitem := length_pieces_pos item
    rw [List.flatMap_cons, List.length_append, List.length_cons]
    omega

theorem flatMap_pieces_eq_self_iff (items : List String) :
    items.flatMap (pieces ',') = items ↔ ∀ item ∈ items, ',' ∉ item.toList := by
  induction items with
  | nil => simp
  | cons item items ih =>
    rw [List.flatMap_cons, List.forall_mem_cons, ← ih]
    constructor
    · intro h
      have hitem : ',' ∉ item.toList := by
        intro hcomma
        have hlonger := one_lt_length_pieces hcomma
        have hrest := length_le_flatMap_pieces items
        have hlength := congrArg List.length h
        rw [List.length_append, List.length_cons] at hlength
        omega
      rw [pieces_eq_self hitem, List.singleton_append] at h
      exact ⟨hitem, (List.cons_eq_cons.mp h).2⟩
    · rintro ⟨hitem, hrest⟩
      rw [pieces_eq_self hitem, hrest, List.singleton_append]

end Text

theorem comma_not_mem_of_isIdentifier {s : String} (h : isIdentifier s = true) :
    ',' ∉ s.toList :=
  fun hc => absurd (isNameRest_of_mem h hc) (by decide)

theorem ColumnRef.isIdentifier_name (column : ColumnRef) : isIdentifier column.name = true := by
  have hsafe : (column.text.toList.splitOn '.').all isName = true := column.safe
  have hne := List.splitOn_ne_nil '.' column.text.toList
  rw [isIdentifier, name, String.toList_ofList, List.getLastD_eq_getLast?,
    List.getLast?_eq_some_getLast hne]
  exact List.all_eq_true.mp hsafe _ (List.getLast_mem hne)

theorem comma_mem_unquoted {s : String} : ',' ∈ (unquoted s).toList ↔ ',' ∈ s.toList := by
  unfold unquoted
  split
  · next rest hs =>
    split
    · next hlast =>
      obtain ⟨inner, rfl⟩ := List.getLast?_eq_some_iff.mp hlast
      rw [hs]
      simp
    · rfl
  · rfl

theorem Value.comma_mem_urlText {v : Value} (h : v.Sound) :
    ',' ∈ v.urlText.toList ↔ ∃ text, v = .literal text ∧ ',' ∈ text.toList := by
  cases v with
  | literal text => simp [urlText, comma_mem_unquoted]
  | param name => simp [urlText, sql, comma_not_mem_of_isIdentifier h]
  | call function => cases function <;> simp [urlText, sql, Function.call]
  | missing => simp [urlText, sql]

theorem Projection.comma_mem_outputName (p : Projection) :
    ',' ∈ p.outputName.toList ↔
      ∃ text, p.asName = none ∧ p.expr = .raw text ∧ ',' ∈ text.toList := by
  obtain ⟨expr, asName⟩ := p
  cases asName with
  | some name => simp [outputName, comma_not_mem_of_isIdentifier name.safe]
  | none =>
    cases expr with
    | raw text => simp [outputName]
    | column column => simp [outputName, comma_not_mem_of_isIdentifier column.isIdentifier_name]
    | aggregate function column =>
      cases column with
      | some column => simp [outputName, comma_not_mem_of_isIdentifier column.isIdentifier_name]
      | none => cases function <;> simp [outputName, Aggregation.name]

theorem Operand.unsplit_iff {operand : Operand} (h : ∀ v ∈ operand.values, v.Sound) :
    (∀ item ∈ operand.values.map Value.urlText, ',' ∉ item.toList) ↔
      ∀ text, .literal text ∈ operand.values → ',' ∉ text.toList := by
  rw [List.forall_mem_map]
  constructor
  · intro hitems text htext hc
    exact hitems _ htext ((Value.comma_mem_urlText (h _ htext)).mpr ⟨text, rfl, hc⟩)
  · intro htexts v hv hc
    obtain ⟨text, rfl, hcomma⟩ := (Value.comma_mem_urlText (h v hv)).mp hc
    exact htexts text hv hcomma

theorem outputNames_unsplit_iff (projection : List Projection) :
    (∀ name ∈ projection.map Projection.outputName, ',' ∉ name.toList) ↔
      ∀ p ∈ projection, ∀ text, p.asName = none → p.expr = .raw text → ',' ∉ text.toList := by
  simp only [List.forall_mem_map, Projection.comma_mem_outputName, not_exists, not_and]

theorem Operand.urlText_eq {operand : Operand} (h : operand.values ≠ []) :
    operand.urlText = ",".intercalate (operand.values.map Value.urlText) := by
  cases operand with
  | none => exact absurd rfl h
  | _ => rfl

namespace Endpoint

def itemsOf? (encoded : String) : Option (List String) :=
  (encoded.toList.splitOn ',').mapM Text.percentDecode?

theorem comma_not_mem_encodeChar {c : Char} (h : c ≠ ',') : ',' ∉ encodeChar c := by
  intro hmem
  rw [encodeChar, if_neg h] at hmem
  rcases Text.mem_percentEncode hmem with h | h
  · exact absurd h (by decide)
  · exact absurd h (by decide)

theorem itemsOf?_encodeValue (value : String) :
    itemsOf? (encodeValue value) = some (Text.pieces ',' value) := by
  have hcomma : encodeChar ',' = [','] := if_pos rfl
  have hpiece : Text.percentDecode? ∘ (·.flatMap encodeChar) =
      fun piece => some (String.ofList piece) :=
    funext percentDecode?_flatMap_encodeChar
  rw [itemsOf?, toList_encodeValue,
    Text.splitOn_flatMap hcomma fun c hc => comma_not_mem_encodeChar hc, List.mapM_map, hpiece]
  exact List.mapM_pure

theorem itemsOf?_joined {items : List String} (h : items ≠ []) :
    itemsOf? (encodeValue (",".intercalate items)) = some (items.flatMap (Text.pieces ',')) := by
  rw [itemsOf?_encodeValue, Text.pieces_intercalate h]

theorem itemsOf?_joined_eq_self_iff {items : List String} (h : items ≠ []) :
    itemsOf? (encodeValue (",".intercalate items)) = some items ↔
      ∀ item ∈ items, ',' ∉ item.toList := by
  rw [itemsOf?_joined h, Option.some_inj, Text.flatMap_pieces_eq_self_iff]

theorem value_of_fieldsPair {e : Endpoint} {key value : String}
    (h : e.fieldsPair = some (key, value)) :
    (e.query.projection.take 2).map Projection.outputName ≠ [] ∧
      value = ",".intercalate ((e.query.projection.take 2).map Projection.outputName) := by
  unfold fieldsPair at h
  dsimp only at h
  split at h
  · next hshown =>
    obtain ⟨-, rfl⟩ := Prod.mk.inj (Option.some_inj.mp h)
    exact ⟨of_decide_eq_true (Bool.and_eq_true_iff.mp hshown).2, rfl⟩
  · cases h

end Endpoint

/-- Cut at its commas, the value of a filter or of the selection gives back the parts of its items.
These are the items themselves exactly if no literal, or no expression without a name, has a
comma. -/
theorem items_of_url_values (c : Config) :
    let e := c.resolve.endpoint
    (∀ comparison, e.query.filter.comparisons.find? (!·.usesParam) = some comparison →
      comparison.operand.values ≠ [] →
      let items := comparison.operand.values.map Value.urlText
      ∃ key value, e.filterPair = some (key, value) ∧
        Endpoint.itemsOf? (Endpoint.encodeValue value) = some (items.flatMap (Text.pieces ',')) ∧
        (Endpoint.itemsOf? (Endpoint.encodeValue value) = some items ↔
          ∀ text, .literal text ∈ comparison.operand.values → ',' ∉ text.toList)) ∧
    (∀ key value, e.fieldsPair = some (key, value) →
      let names := (e.query.projection.take 2).map Projection.outputName
      Endpoint.itemsOf? (Endpoint.encodeValue value) = some (names.flatMap (Text.pieces ',')) ∧
        (Endpoint.itemsOf? (Endpoint.encodeValue value) = some names ↔
          ∀ p ∈ e.query.projection.take 2, ∀ text, p.asName = none → p.expr = .raw text →
            ',' ∉ text.toList)) := by
  intro e
  constructor
  · intro comparison hfind hvalues items
    have hitems : items ≠ [] := fun hnil => hvalues (List.map_eq_nil_iff.mp hnil)
    obtain ⟨f, -, -, -, hoperand⟩ :=
      Config.exists_filter_of_comparison (List.mem_of_find?_eq_some hfind)
    refine ⟨comparison.pair.1, ",".intercalate items, ?_, Endpoint.itemsOf?_joined hitems, ?_⟩
    · rw [Endpoint.filterPair, hfind, ← Operand.urlText_eq hvalues]
      rfl
    · rw [Endpoint.itemsOf?_joined_eq_self_iff hitems]
      exact Operand.unsplit_iff hoperand.fits.values
  · intro key value hpair names
    obtain ⟨hnames, rfl⟩ := Endpoint.value_of_fieldsPair hpair
    refine ⟨Endpoint.itemsOf?_joined hnames, ?_⟩
    rw [Endpoint.itemsOf?_joined_eq_self_iff hnames]
    exact outputNames_unsplit_iff _

def listedConfig : Config where
  fields := [{ column := "u.id" }, { expression := some "count(*)" }, { expression := some "f(a, b)" }]
  filters := [{ column := "kind", operator := some .inList, value := "'a b', c&d,, 5%" }]
  allowFieldSelection := true

theorem items_of_listedConfig :
    let e := listedConfig.resolve.endpoint
    (∃ key value, e.filterPair = some (key, value) ∧
      Endpoint.itemsOf? (Endpoint.encodeValue value) = some ["a b", "c&d", "5%"]) ∧
    e.fieldsPair = some ("fields", "id,count(*)") ∧
      Endpoint.itemsOf? (Endpoint.encodeValue "id,count(*)") = some ["id", "count(*)"] := by
  have hfind : listedConfig.resolve.endpoint.query.filter.comparisons.find? (!·.usesParam) =
      some ⟨⟨"kind", by decide⟩, .inList,
        .list [.literal "'a b'", .literal "c&d", .literal "5%"]⟩ := by decide +kernel
  have hpair : listedConfig.resolve.endpoint.fieldsPair = some ("fields", "id,count(*)") := by
    decide +kernel
  have hprojection : listedConfig.resolve.endpoint.query.projection.take 2 =
      [⟨.column ⟨"u.id", by decide⟩, none⟩, ⟨.raw "count(*)", none⟩] := by decide +kernel
  obtain ⟨hfilter, hfields⟩ := items_of_url_values listedConfig
  refine ⟨?_, hpair, ?_⟩
  · obtain ⟨key, value, hvalue, -, hitems⟩ := hfilter _ hfind (by decide)
    refine ⟨key, value, hvalue, (hitems.mpr ?_).trans (by decide)⟩
    simp [Operand.values]
  · refine ((hfields _ _ hpair).2.mpr ?_).trans ?_
    · rw [hprojection]
      simp
    · rw [hprojection]
      decide

def quotedCommaConfig : Config where
  filters := [{ column := "s", operator := some .inList, value := "'a,b', c" }]

theorem quoted_comma_torn :
    let e := quotedCommaConfig.resolve.endpoint
    e.query.filter.comparisons.map (·.operand.values.map Value.urlText) = [["a,b", "c"]] ∧
      e.filterPair = some ("s[in]", "a,b,c") ∧
      Endpoint.itemsOf? (Endpoint.encodeValue "a,b,c") = some ["a", "b", "c"] := by
  refine ⟨by decide +kernel, by decide +kernel, ?_⟩
  rw [Endpoint.itemsOf?_encodeValue]
  decide

end EndpointPreview
