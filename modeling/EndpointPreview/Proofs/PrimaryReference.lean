import EndpointPreview.Proofs.WellFormed
/-!
The reference to the primary table that a configuration gives by itself, next to the one that its
query uses. The query trims every name and leaves a bad one out, so the two are the same only where
the configuration is written as the query writes it.
-/

namespace EndpointPreview

theorem eq_of_qualified_eq {table table' name name' : String} (hname : isIdentifier name = true)
    (hname' : isIdentifier name' = true)
    (h : table ++ "." ++ name = table' ++ "." ++ name') : table = table' := by
  have hdot : ".".toList = ['.'] := rfl
  have hchars : table.toList ++ '.' :: name.toList = table'.toList ++ '.' :: name'.toList := by
    simpa [String.toList_append, hdot] using congrArg String.toList h
  have hpieces := congrArg (List.splitOn '.') hchars
  rw [List.splitOn_append_cons_self, List.splitOn_append_cons_self,
    List.splitOn_eq_singleton (dot_not_mem_of_isName hname),
    List.splitOn_eq_singleton (dot_not_mem_of_isName hname')] at hpieces
  have hlast : name.toList = name'.toList := (List.append_singleton_inj.mp hpieces).2
  rw [hlast] at hchars
  exact String.toList_inj.mp (List.append_cancel_right hchars)

namespace Config

def NamesPlainly (c : Config) : Prop :=
  (∀ name ∈ c.primaryName.bind Text.filled, isIdentifier name = true) ∧
    (c.primaryName.bind Text.filled = none → Text.trim c.primaryTable = c.primaryTable)

theorem source_texts {c : Config} {source : TableRef} (h : c.checkSource.1 = some source) :
    source.name.text = Text.trim c.primaryTable ∧
      source.asName.map Ident.text = (c.primaryName.bind Text.filled).filter isIdentifier := by
  unfold checkSource at h
  split at h
  · cases h
  · next table htable =>
    obtain ⟨-, rfl⟩ := filled_eq_some.mp htable
    split at h
    · cases h
    · next name hname =>
      have htext : name.text = Text.trim c.primaryTable := by
        rw [Ident.ofText?_eq_some.mp hname, trim_trim]
      split at h
      · next hnone =>
        cases h
        exact ⟨htext, by rw [hnone]; rfl⟩
      · next text hsome =>
        have htrim : Text.trim text = text := filled_trim hsome
        split at h
        · next asName hasName =>
          cases h
          have hasName : asName.text = text := (Ident.ofText?_eq_some.mp hasName).trans htrim
          have hsafe : isIdentifier text = true := hasName ▸ asName.safe
          exact ⟨htext, by rw [hsome, Option.filter_some_pos hsafe, Option.map_some, hasName]⟩
        · next hbad =>
          cases h
          have hunsafe : isIdentifier text = false := by
            unfold Ident.ofText? at hbad
            rw [htrim] at hbad
            split_ifs at hbad with hsafe
            exact Bool.eq_false_iff.mpr hsafe
          exact ⟨htext, by rw [hsome, Option.filter_some_neg hunsafe]; rfl⟩

theorem reference_text {c : Config} {source : TableRef} (h : c.checkSource.1 = some source) :
    source.reference.text =
      ((c.primaryName.bind Text.filled).filter isIdentifier).getD (Text.trim c.primaryTable) := by
  obtain ⟨hname, hasName⟩ := source_texts h
  rw [← hname, ← hasName, TableRef.reference, Option.getD_map Ident.text]

theorem primaryReference_eq_iff_namesPlainly {c : Config} {source : TableRef}
    (h : c.checkSource.1 = some source) :
    c.primaryReference = source.reference.text ↔ c.NamesPlainly := by
  have htable : isIdentifier (Text.trim c.primaryTable) = true := (source_texts h).1 ▸ source.name.safe
  rw [reference_text h, primaryReference, NamesPlainly]
  cases hname : c.primaryName.bind Text.filled with
  | none =>
    rw [Option.filter_none, Option.getD_none, Option.getD_none, eq_comm]
    simp
  | some name =>
    rw [Option.getD_some]
    by_cases hsafe : isIdentifier name = true
    · rw [Option.filter_some_pos hsafe]
      simp [hsafe]
    · have hne : name ≠ Text.trim c.primaryTable := fun he => hsafe (he ▸ htable)
      rw [Option.filter_some_neg (Bool.eq_false_iff.mpr hsafe)]
      simp [hsafe, hne]

end Config

/-- The reference of the configuration is the one that the query and its joins use exactly if the
configuration names its table plainly. -/
theorem primaryReference_eq_iff (c : Config) (source : TableRef)
    (hsource : c.resolve.endpoint.query.source = some source) :
    (c.primaryReference = source.reference.text ↔ c.NamesPlainly) ∧
      ∀ j ∈ c.resolve.endpoint.query.joins, source.Owns j.left ∧
        ((∃ name, isIdentifier name = true ∧ j.left.text = c.primaryReference ++ "." ++ name) ↔
          c.NamesPlainly) := by
  have hchecked : c.checkSource.1 = some source := hsource
  have hplain := Config.primaryReference_eq_iff_namesPlainly hchecked
  refine ⟨hplain, ?_⟩
  intro j hj
  obtain ⟨-, other, hother, howns⟩ := (resolve_wellFormed c).joins j hj
  cases hother.symm.trans hsource
  refine ⟨howns, ?_⟩
  rw [← hplain]
  obtain ⟨column, hcolumn, hleft⟩ := howns
  constructor
  · rintro ⟨name, hname, htext⟩
    exact eq_of_qualified_eq hname hcolumn (htext.symm.trans hleft)
  · intro he
    exact ⟨column, hcolumn, by rw [he, hleft]⟩

def namedTableConfig : Config where
  primaryTable := " users\t"
  primaryName := some " u "
  joins := [{ table := "orders", asName := some "o", leftColumn := " id ", rightColumn := "user_id" }]

theorem primaryReference_of_namedTableConfig :
    namedTableConfig.resolve.endpoint.query.source =
        some ⟨⟨"users", by decide⟩, some ⟨"u", by decide⟩⟩ ∧
      namedTableConfig.primaryReference = "u" ∧
      ∀ j ∈ namedTableConfig.resolve.endpoint.query.joins, ∃ name, isIdentifier name = true ∧
        j.left.text = namedTableConfig.primaryReference ++ "." ++ name := by
  have hsource : namedTableConfig.resolve.endpoint.query.source =
      some ⟨⟨"users", by decide⟩, some ⟨"u", by decide⟩⟩ := by decide
  have hplain : namedTableConfig.NamesPlainly := ⟨by decide, by decide⟩
  obtain ⟨hreference, hjoins⟩ := primaryReference_eq_iff namedTableConfig _ hsource
  exact ⟨hsource, hreference.mpr hplain, fun j hj => (hjoins j hj).2.mpr hplain⟩

theorem primaryReference_not_used :
    Config.primaryReference { primaryTable := " users " } = " users " ∧
      Config.primaryReference { primaryTable := "users", primaryName := some "bad name" } =
        "bad name" ∧
      ∀ c ∈ [({ primaryTable := " users " } : Config),
        { primaryTable := "users", primaryName := some "bad name" }],
        c.resolve.endpoint.query.source.map (·.reference.text) = some "users" := by
  decide

end EndpointPreview
