import EndpointPreview.Preview
import EndpointPreview.Text.Split
import EndpointPreview.Proofs.WellFormed
/-!
The text of a query without free text. Only what a configuration gives as an expression, as a join
condition or as a literal is written unchecked; where it gives none, the query stays inside a small
alphabet, whatever its other texts are, and its lines are those of its clauses.
-/

namespace EndpointPreview

def isPlainChar (c : Char) : Bool :=
  c.isAlphanum || c ∈ ['_', '.', ',', '(', ')', '*', '=', '!', '<', '>', '\x7b', '\x7d', ' ']

def Plain (s : String) : Prop :=
  ∀ c ∈ s.toList, isPlainChar c = true

instance (s : String) : Decidable (Plain s) :=
  decidable_of_iff (s.toList.all isPlainChar = true) List.all_eq_true

theorem Plain.append {s t : String} (hs : Plain s) (ht : Plain t) : Plain (s ++ t) := by
  intro c hc
  rw [String.toList_append, List.mem_append] at hc
  rcases hc with hc | hc
  · exact hs c hc
  · exact ht c hc

theorem Plain.between {left s right : String} (hleft : Plain left) (hs : Plain s)
    (hright : Plain right) : Plain (left ++ s ++ right) :=
  (hleft.append hs).append hright

theorem mem_intercalate {sep : String} {parts : List String} {c : Char}
    (h : c ∈ (sep.intercalate parts).toList) : c ∈ sep.toList ∨ ∃ s ∈ parts, c ∈ s.toList := by
  induction parts with
  | nil => cases h
  | cons s parts ih =>
    cases parts with
    | nil =>
      rw [String.intercalate_singleton] at h
      exact .inr ⟨s, List.mem_cons_self, h⟩
    | cons t parts =>
      rw [String.intercalate_cons_cons] at h
      simp only [String.toList_append, List.mem_append] at h
      rcases h with (h | h) | h
      · exact .inr ⟨s, List.mem_cons_self, h⟩
      · exact .inl h
      · rcases ih h with hsep | ⟨u, hu, hc⟩
        · exact .inl hsep
        · exact .inr ⟨u, List.mem_cons_of_mem _ hu, hc⟩

theorem Plain.intercalate {sep : String} {parts : List String} (hsep : Plain sep)
    (h : ∀ s ∈ parts, Plain s) : Plain (sep.intercalate parts) := by
  intro c hc
  rcases mem_intercalate hc with hc | ⟨s, hs, hc⟩
  · exact hsep c hc
  · exact h s hs c hc

theorem plain_of_isIdentifier {s : String} (h : isIdentifier s = true) : Plain s := by
  intro c hc
  have hrest : isNameRest c = true := isNameRest_of_mem h hc
  rw [isNameRest, Bool.or_eq_true, beq_iff_eq] at hrest
  rcases hrest with hc | rfl
  · rw [isPlainChar, hc, Bool.true_or]
  · decide

theorem Ident.plain (name : Ident) : Plain name.text :=
  plain_of_isIdentifier name.safe

theorem ColumnRef.mem_text {column : ColumnRef} {c : Char} (h : c ∈ column.text.toList) :
    isNameRest c = true ∨ c = '.' := by
  obtain ⟨names, -, hnames, htext⟩ := column.exists_names
  rw [htext] at h
  rcases mem_intercalate h with h | ⟨name, hname, h⟩
  · exact .inr (List.mem_singleton.mp h)
  · exact .inl (isNameRest_of_mem (hnames name hname) h)

theorem ColumnRef.plain (column : ColumnRef) : Plain column.text := by
  obtain ⟨names, -, hnames, htext⟩ := column.exists_names
  rw [htext]
  apply Plain.intercalate (by decide)
  intro name hname
  exact plain_of_isIdentifier (hnames name hname)

theorem plain_toString (n : Nat) : Plain (toString n) := by
  intro c hc
  rw [Nat.toString_eq_ofList_toDigits, String.toList_ofList] at hc
  have hdigit : c.isDigit = true := Nat.isDigit_of_mem_toDigits (by decide) (by decide) hc
  simp [isPlainChar, Char.isAlphanum, hdigit]

theorem plain_list {α : Type} {text : α → String} {items : List α}
    (h : ∀ item ∈ items, Plain (text item)) : Plain (", ".intercalate (items.map text)) := by
  apply Plain.intercalate (by decide)
  intro s hs
  obtain ⟨item, hitem, rfl⟩ := List.mem_map.mp hs
  exact h item hitem

theorem Expr.plain_sql {e : Expr} (h : ∀ text, e ≠ .raw text) : Plain e.sql := by
  cases e with
  | raw text => exact absurd rfl (h text)
  | column c => exact c.plain
  | aggregate function c =>
    have hargument : Plain ((c.map ColumnRef.text).getD "*") := by
      cases c with
      | none => decide
      | some c => exact c.plain
    cases function with
    | none => exact hargument
    | countDistinct => exact .between (by decide) hargument (by decide)
    | _ => exact .between (by decide) hargument (by decide)

theorem Projection.plain_sql {p : Projection} (h : ∀ text, p.expr ≠ .raw text) : Plain p.sql := by
  have hexpr := Expr.plain_sql h
  unfold sql
  split
  · next name _ => exact hexpr.between (by decide) name.plain
  · exact hexpr

theorem plain_projectionSql {projection : List Projection}
    (h : ∀ p ∈ projection, ∀ text, p.expr ≠ .raw text) : Plain (projectionSql projection) := by
  unfold projectionSql
  split
  · decide
  · exact plain_list fun p hp => Projection.plain_sql (h p hp)

theorem TableRef.plain_sql (t : TableRef) : Plain t.sql := by
  unfold sql
  split
  · next name _ => exact t.name.plain.between (by decide) name.plain
  · exact t.name.plain

theorem JoinClause.plain_sql {j : JoinClause} (h : j.condition = none) : Plain j.sql := by
  have hkind : Plain j.kind.keyword := by cases j.kind <;> decide
  have htable : Plain (j.kind.keyword ++ " JOIN " ++ j.table.sql) :=
    hkind.between (by decide) j.table.plain_sql
  have hleft : Plain (j.kind.keyword ++ " JOIN " ++ j.table.sql ++ " ON " ++ j.left.text) :=
    htable.between (by decide) j.left.plain
  unfold sql
  rw [h]
  apply Plain.append
  · exact hleft.between (by decide) j.right.plain
  · decide

theorem Value.plain_sql {v : Value} (hsound : v.Sound) (hliteral : v.isLiteral = false) :
    Plain v.sql := by
  cases v with
  | literal text => cases hliteral
  | param name => exact .between (by decide) (plain_of_isIdentifier hsound) (by decide)
  | call function => cases function <;> decide
  | missing => decide

theorem Operand.plain_words {operand : Operand} (h : ∀ v ∈ operand.values, Plain v.sql) :
    ∀ word ∈ operand.words, Plain word := by
  cases operand with
  | none => simp [words]
  | single v => simpa [words, values] using h
  | range low high =>
    have hlow : Plain low.sql := h low List.mem_cons_self
    cases high with
    | none => simpa [words] using hlow
    | some high =>
      have hhigh : Plain high.sql := h high (by simp [values])
      simp only [words, List.forall_mem_cons]
      exact ⟨hlow, by decide, hhigh, by simp⟩
  | list vs =>
    cases vs with
    | nil => simp [words]
    | cons v vs =>
      have hlist : Plain (", ".intercalate ((v :: vs).map Value.sql)) := plain_list h
      simp only [words, List.forall_mem_singleton]
      exact .between (by decide) hlist (by decide)

theorem Comparison.plain_sql {c : Comparison} (h : ∀ v ∈ c.operand.values, Plain v.sql) :
    Plain c.sql := by
  have hsymbol : Plain c.operator.symbol := by cases c.operator <;> decide
  have hparts : ∀ part ∈ c.column.text :: c.operator.symbol :: c.operand.words, Plain part := by
    simp only [List.forall_mem_cons]
    exact ⟨c.column.plain, hsymbol, Operand.plain_words h⟩
  apply Plain.intercalate (by decide)
  intro part hpart
  exact hparts part (List.mem_of_mem_filter hpart)

theorem Connective.plain_keyword (connective : Connective) :
    Plain (" " ++ connective.keyword ++ " ") := by
  cases connective <;> decide

mutual

theorem Predicate.plain_sql : ∀ p : Predicate, (∀ c ∈ p.comparisons, Plain c.sql) → Plain p.sql
  | .compare c, h => h c List.mem_cons_self
  | .group [], _ => by decide
  | .group (.mk connective p :: links), h => by
    have hfirst : Plain p.sql := p.plain_sql fun c hc => h c (List.mem_append_left _ hc)
    have hrest : Plain (linksSql links) :=
      plain_linksSql links fun c hc => h c (List.mem_append_right _ hc)
    exact .between (by decide) (hfirst.append hrest) (by decide)

theorem plain_linksSql : ∀ links : List Link, (∀ c ∈ comparisonsOf links, Plain c.sql) →
    Plain (linksSql links)
  | [], _ => by decide
  | .mk connective p :: links, h => by
    have hfirst : Plain p.sql := p.plain_sql fun c hc => h c (List.mem_append_left _ hc)
    have hrest : Plain (linksSql links) :=
      plain_linksSql links fun c hc => h c (List.mem_append_right _ hc)
    exact (connective.plain_keyword.append hfirst).append hrest

end

theorem Chain.plain_sql {chain : Chain} (h : ∀ c ∈ chain.comparisons, Plain c.sql) :
    Plain chain.sql := by
  cases chain with
  | nil => decide
  | cons link links =>
    obtain ⟨connective, p⟩ := link
    have hfirst : Plain p.sql := p.plain_sql fun c hc => h c (List.mem_append_left _ hc)
    exact hfirst.append (plain_linksSql links fun c hc => h c (List.mem_append_right _ hc))

theorem OrderItem.plain_sql (o : OrderItem) : Plain o.sql := by
  have hdirection : Plain o.direction.keyword := by cases o.direction <;> decide
  exact o.column.plain.between (by decide) hdirection

theorem Limit.plain_sql (l : Limit) : Plain l.sql := by
  have hcount : Plain ("LIMIT " ++ toString l.count.toNat) :=
    (by decide : Plain "LIMIT ").append (plain_toString _)
  unfold sql
  split
  · exact hcount.append (by decide)
  · exact hcount.append (by decide)

namespace Query

structure Checked (q : Query) : Prop where
  projection : ∀ p ∈ q.projection, ∀ text, p.expr ≠ .raw text
  joins : ∀ j ∈ q.joins, j.condition = none
  values : ∀ c ∈ q.filter.comparisons, ∀ v ∈ c.operand.values, v.Sound ∧ v.isLiteral = false

theorem plain_firstLine {q : Query} (h : q.Checked) : Plain q.firstLine := by
  have hselect : Plain (if q.distinct then "SELECT DISTINCT " else "SELECT ") := by
    split <;> decide
  have hlist := hselect.append (plain_projectionSql h.projection)
  unfold firstLine
  cases q.source with
  | none => exact hlist.append (by decide)
  | some table => exact hlist.append ((by decide : Plain " FROM ").append table.plain_sql)

theorem plain_filterSql {q : Query} (h : q.Checked) : Plain q.filter.sql := by
  apply Chain.plain_sql
  intro c hc
  apply Comparison.plain_sql
  intro v hv
  obtain ⟨hsound, hliteral⟩ := h.values c hc v hv
  exact Value.plain_sql hsound hliteral

theorem plain_sqlLines {q : Query} (h : q.Checked) : ∀ line ∈ q.sqlLines, Plain line := by
  intro line hline
  simp only [sqlLines, List.mem_append, List.mem_cons, List.mem_map, Option.mem_toList] at hline
  rcases hline with ((((rfl | ⟨j, hj, rfl⟩) | hline) | hline) | hline) | hline
  · exact plain_firstLine h
  · exact JoinClause.plain_sql (h.joins j hj)
  · unfold Chain.clause at hline
    split at hline
    · cases hline
    · cases hline
      exact (by decide : Plain "WHERE ").append (plain_filterSql h)
  · unfold groupBySql at hline
    split at hline
    · cases hline
    · cases hline
      exact (by decide : Plain "GROUP BY ").append (plain_list fun column _ => column.plain)
  · unfold orderBySql at hline
    split at hline
    · cases hline
    · cases hline
      exact (by decide : Plain "ORDER BY ").append (plain_list fun item _ => item.plain_sql)
  · obtain ⟨l, -, rfl⟩ := Option.map_eq_some_iff.mp hline
    exact l.plain_sql

theorem plain_or_newline_of_mem_sql {q : Query} (h : q.Checked) :
    ∀ c ∈ q.sql.toList, isPlainChar c = true ∨ c = '\n' := by
  intro c hc
  rcases mem_intercalate hc with hc | ⟨line, hline, hc⟩
  · right
    exact List.mem_singleton.mp hc
  · left
    exact plain_sqlLines h line hline c hc

theorem pieces_sql {q : Query} (h : q.Checked) : Text.pieces '\n' q.sql = q.sqlLines := by
  have hnewline : "\n".toList = ['\n'] := rfl
  -- No line has a line feed of its own, so cutting at line feeds gives back what was joined.
  have hlines : ∀ line ∈ q.sqlLines.map String.toList, '\n' ∉ line := by
    intro cs hcs hmem
    obtain ⟨line, hline, rfl⟩ := List.mem_map.mp hcs
    exact absurd (plain_sqlLines h line hline '\n' hmem) (by decide)
  have hid : String.ofList ∘ String.toList = id := funext fun _ => String.ofList_toList
  rw [Text.pieces, sql, String.toList_intercalate, hnewline,
    List.splitOn_intercalate _ hlines (by simp [sqlLines]), List.map_map, hid, List.map_id]

def openings (q : Query) : List String :=
  ["SELECT"] ++ q.joins.map (fun j => j.kind.keyword ++ " JOIN") ++
    (if q.filter.isEmpty then [] else ["WHERE"]) ++
    (if q.groupBy.isEmpty then [] else ["GROUP BY"]) ++
    (if q.orderBy.isEmpty then [] else ["ORDER BY"]) ++
    if q.limit.isSome then ["LIMIT"] else []

def Opens (opening line : String) : Prop :=
  ∃ rest, line = opening ++ " " ++ rest

theorem opens_firstLine (q : Query) : Opens "SELECT" q.firstLine := by
  have hselect : ∃ rest, (if q.distinct then "SELECT DISTINCT " else "SELECT ") =
      "SELECT" ++ " " ++ rest := by
    cases q.distinct with
    | false => exact ⟨"", by decide⟩
    | true => exact ⟨"DISTINCT ", by decide⟩
  obtain ⟨rest, hrest⟩ := hselect
  unfold firstLine
  rw [hrest, String.append_assoc, String.append_assoc]
  exact ⟨_, rfl⟩

theorem opens_joinSql (j : JoinClause) : Opens (j.kind.keyword ++ " JOIN") j.sql := by
  have hjoin : " JOIN " = " JOIN" ++ " " := by decide
  unfold JoinClause.sql
  rw [hjoin]
  simp only [String.append_assoc]
  exact ⟨_, by simp only [String.append_assoc]; rfl⟩

theorem opens_limitSql (l : Limit) : Opens "LIMIT" l.sql := by
  unfold Limit.sql
  rw [String.append_assoc]
  exact ⟨_, rfl⟩

theorem opens_sqlLines (q : Query) : List.Forall₂ Opens q.openings q.sqlLines := by
  have hselect : List.Forall₂ Opens ["SELECT"] [q.firstLine] := .cons q.opens_firstLine .nil
  have hjoins : List.Forall₂ Opens (q.joins.map fun j => j.kind.keyword ++ " JOIN")
      (q.joins.map JoinClause.sql) := by
    rw [List.forall₂_map_left_iff, List.forall₂_map_right_iff, List.forall₂_same]
    intro j _
    exact opens_joinSql j
  have hfilter : List.Forall₂ Opens (if q.filter.isEmpty then [] else ["WHERE"])
      q.filter.clause.toList := by
    unfold Chain.clause
    split
    · exact .nil
    · exact .cons ⟨_, rfl⟩ .nil
  have hgroup : List.Forall₂ Opens (if q.groupBy.isEmpty then [] else ["GROUP BY"])
      (groupBySql q.groupBy).toList := by
    unfold groupBySql
    cases q.groupBy with
    | nil => exact .nil
    | cons column columns => exact .cons ⟨_, rfl⟩ .nil
  have horder : List.Forall₂ Opens (if q.orderBy.isEmpty then [] else ["ORDER BY"])
      (orderBySql q.orderBy).toList := by
    unfold orderBySql
    cases q.orderBy with
    | nil => exact .nil
    | cons item items => exact .cons ⟨_, rfl⟩ .nil
  have hlimit : List.Forall₂ Opens (if q.limit.isSome then ["LIMIT"] else [])
      (q.limit.map Limit.sql).toList := by
    cases q.limit with
    | none => exact .nil
    | some l => exact .cons (opens_limitSql l) .nil
  exact List.rel_append (List.rel_append (List.rel_append (List.rel_append
    (List.rel_append hselect hjoins) hfilter) hgroup) horder) hlimit

end Query

namespace Config

/-- No enabled entry carries text that goes into the query as it stands. -/
structure NoFreeText (c : Config) : Prop where
  fields : ∀ f ∈ c.fields, f.enabled = true → ∀ text ∈ f.expression, Text.blank text = true
  joins : ∀ j ∈ c.joins, j.enabled = true → ∀ text ∈ j.condition, Text.blank text = true
  filters : ∀ f ∈ c.filters, f.enabled = true → f.source = .static → ∀ operator ∈ f.operator,
    operator = .isNull ∨ operator = .isNotNull

theorem Field.not_raw_of_check {f : Field} {before : List Projection} {p : Projection}
    (h : (f.check before).result = some p)
    (hblank : ∀ text ∈ f.expression, Text.blank text = true) (text : String) :
    p.expr ≠ .raw text := by
  intro he
  obtain ⟨-, hexpr⟩ := describes_of_check h
  rw [bind_filled_eq_none hblank, he] at hexpr
  exact hexpr

theorem resolve_checked {c : Config} (h : c.NoFreeText) : c.resolve.endpoint.query.Checked where
  projection p hp := by
    obtain ⟨before, f, hf, hcheck⟩ := Survey.exists_of_mem_results hp
    have he : f.enabled = true := Field.enabled_of_check hcheck
    exact Field.not_raw_of_check hcheck (h.fields f hf he)
  joins clause hclause := by
    obtain ⟨-, j, hj, hcheck⟩ := Survey.exists_of_mem_results hclause
    have he : j.enabled = true := (Join.wanted_of_check hcheck).1
    obtain ⟨-, -, -, -, -, hcondition⟩ := Join.describes_of_check hcheck
    rw [hcondition]
    exact bind_filled_eq_none (h.joins j hj he)
  values comparison hcomparison := by
    obtain ⟨f, hf, he, ho, hoperand⟩ := exists_filter_of_comparison hcomparison
    have hstatic : f.source = .static → comparison.operator.arity = .none := by
      intro hs
      rcases h.filters f hf he hs _ ho with hnull | hnull
      · rw [hnull]
        rfl
      · rw [hnull]
        rfl
    intro v hv
    exact ⟨hoperand.fits.values v hv, hoperand.not_literal hstatic v hv⟩

end Config

/-- Without free text a query keeps to its alphabet and to one line a clause, whatever the other
texts of the configuration are. -/
theorem preview_query_plain {c : Config} (h : c.NoFreeText) (host : String) :
    (∀ ch ∈ (c.preview host).query.toList, isPlainChar ch = true ∨ ch = '\n') ∧
      Text.pieces '\n' (c.preview host).query = c.resolve.endpoint.query.sqlLines ∧
      List.Forall₂ Query.Opens c.resolve.endpoint.query.openings
        (Text.pieces '\n' (c.preview host).query) := by
  have hchecked : c.resolve.endpoint.query.Checked := Config.resolve_checked h
  have hpieces : Text.pieces '\n' (c.preview host).query = c.resolve.endpoint.query.sqlLines :=
    Query.pieces_sql hchecked
  refine ⟨Query.plain_or_newline_of_mem_sql hchecked, hpieces, ?_⟩
  rw [hpieces]
  exact Query.opens_sqlLines _

def hostileConfig : Config where
  primaryTable := " users "
  primaryName := some "u; DROP TABLE users"
  fields := [
    { column := "id\n; --" },
    { column := "age", asName := some "oldest", aggregation := .max, expression := some "\t" }]
  joins := [
    { table := "posts", leftColumn := "id", rightColumn := "user_id", condition := some " " },
    { table := "tags", leftColumn := "id' --", rightColumn := "user_id" }]
  filters := [
    { column := "age", operator := some .isNull, value := "'; --" },
    { column := "id", operator := some .eq, source := .parameter, value := "id\\; --" },
    { column := "id", operator := some .eq, source := .parameter, value := "\x7b\x7bid\x7d\x7d" }]
  params := [{ name := "id" }, { name := "\"" }]

theorem hostileConfig_query_plain :
    hostileConfig.NoFreeText ∧
      (∀ ch ∈ (hostileConfig.preview defaultHost).query.toList, isPlainChar ch = true ∨ ch = '\n') ∧
      Text.pieces '\n' (hostileConfig.preview defaultHost).query =
        ["SELECT MAX(age) AS oldest FROM users",
          "INNER JOIN posts ON users.id = posts.user_id",
          "WHERE age IS NULL AND id = \x7b\x7bid\x7d\x7d"] ∧
      List.Forall₂ Query.Opens ["SELECT", "INNER JOIN", "WHERE"]
        (Text.pieces '\n' (hostileConfig.preview defaultHost).query) := by
  have hfree : hostileConfig.NoFreeText := ⟨by decide, by decide, by decide⟩
  obtain ⟨hplain, hpieces, hopens⟩ := preview_query_plain hfree defaultHost
  have hopenings : hostileConfig.resolve.endpoint.query.openings =
      ["SELECT", "INNER JOIN", "WHERE"] := by decide
  rw [hopenings] at hopens
  refine ⟨hfree, hplain, ?_, hopens⟩
  rw [hpieces]
  decide

end EndpointPreview
