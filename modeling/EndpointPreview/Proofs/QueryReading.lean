import EndpointPreview.Proofs.ClauseReading
import EndpointPreview.Proofs.FilterReading
/-!
The text of a query determines the query, where expressions, join conditions and values are not free
text. Only the first connective of the filter is not written.
-/

namespace EndpointPreview

/-- The chain as it is written, whatever its first connective is. -/
def Chain.canonical : Chain → Chain
  | [] => []
  | .mk _ p :: links => .mk .and p :: links

def Query.canonical (q : Query) : Query :=
  { q with filter := q.filter.canonical }

theorem Chain.clause_canonical (chain : Chain) : chain.canonical.clause = chain.clause := by
  match chain with
  | [] => rfl
  | .mk _ _ :: _ => rfl

theorem Chain.clause_inj {chain chain' : Chain} (h : linksFixed chain) (h' : linksFixed chain')
    (he : chain.clause = chain'.clause) : chain.canonical = chain'.canonical := by
  match chain, chain', h, h' with
  | [], [], _, _ => rfl
  | [], .mk _ _ :: _, _, _ => cases he
  | .mk _ _ :: _, [], _, _ => cases he
  | .mk connective p :: links, .mk connective' p' :: links', ⟨hp, hlinks⟩, ⟨hp', hlinks'⟩ =>
    have hends : EndsLinks [] := nofun
    have hsql := Option.some_inj.mp he
    simp only [sql, ← String.toList_inj, String.toList_append] at hsql
    have hchain := congrArg (· ++ []) (List.append_cancel_left hsql)
    simp only [List.append_assoc] at hchain
    obtain ⟨rfl, hrest⟩ := Predicate.sql_inj p p' hp hp' (endsPredicate_linksSql hlinks hends)
      (endsPredicate_linksSql hlinks' hends) hchain
    obtain ⟨rfl, -⟩ := linksSql_inj links links' hlinks hlinks' hends hends hrest
    rfl

def Led (leads : List (List Char)) (lines : List String) : Prop :=
  ∀ line ∈ lines, line.toList.take 2 ∈ leads

theorem Led.append {leads leads' : List (List Char)} {lines lines' : List String}
    (h : Led leads lines) (h' : Led leads' lines') : Led (leads ++ leads') (lines ++ lines') := by
  intro line hline
  rcases List.mem_append.mp hline with hline | hline
  · exact List.mem_append_left _ (h line hline)
  · exact List.mem_append_right _ (h' line hline)

theorem Led.append_inj {leads leads' : List (List Char)} {xs xs' ys ys' : List String}
    (hdisjoint : ∀ lead ∈ leads', lead ∉ leads) (hxs : Led leads xs) (hxs' : Led leads xs')
    (hys : Led leads' ys) (hys' : Led leads' ys') (he : xs ++ ys = xs' ++ ys') :
    xs = xs' ∧ ys = ys' := by
  have hstops : ∀ {ys : List String}, Led leads' ys →
      Stops (fun line : String => decide (line.toList.take 2 ∈ leads)) ys :=
    fun hys => stops_of_forall fun line hline => decide_eq_false (hdisjoint _ (hys line hline))
  exact append_inj_of_stops (fun line hline => decide_eq_true (hxs line hline))
    (fun line hline => decide_eq_true (hxs' line hline)) (hstops hys) (hstops hys') he

theorem led_joins (joins : List JoinClause) :
    Led ["IN".toList, "LE".toList, "RI".toList, "FU".toList] (joins.map JoinClause.sql) := by
  intro line hline
  obtain ⟨j, -, rfl⟩ := List.mem_map.mp hline
  obtain ⟨rest, hrest⟩ := Query.opens_joinSql j
  rw [hrest, String.toList_append, String.toList_append, String.toList_append]
  cases j.kind <;> simp [JoinKind.keyword]

theorem led_unless {p : Prop} [Decidable p] {lead : List Char} {line : String}
    (h : line.toList.take 2 = lead) : Led [lead] (if p then none else some line).toList := by
  split_ifs
  · exact List.forall_mem_nil _
  · exact List.forall_mem_singleton.mpr (List.mem_singleton.mpr h)

theorem led_clause (chain : Chain) : Led ["WH".toList] chain.clause.toList :=
  led_unless (by simp [String.toList_append])

theorem led_groupBy (columns : List ColumnRef) : Led ["GR".toList] (groupBySql columns).toList :=
  led_unless (by simp [String.toList_append])

theorem led_orderBy (items : List OrderItem) : Led ["OR".toList] (orderBySql items).toList :=
  led_unless (by simp [String.toList_append])

theorem led_limit (limit : Option Limit) : Led ["LI".toList] (limit.map Limit.sql).toList := by
  intro line hline
  obtain ⟨l, -, rfl⟩ := Option.map_eq_some_iff.mp (Option.mem_toList.mp hline)
  simp [Limit.sql, String.toList_append]

def Expr.isRaw : Expr → Bool
  | .raw _ => true
  | _ => false

theorem joins_inj {joins joins' : List JoinClause} (h : ∀ j ∈ joins, j.condition = none)
    (h' : ∀ j ∈ joins', j.condition = none)
    (he : joins.map JoinClause.sql = joins'.map JoinClause.sql) : joins = joins' := by
  induction joins generalizing joins' with
  | nil => exact (List.map_eq_nil_iff.mp he.symm).symm
  | cons j joins ih =>
    cases joins' with
    | nil => cases he
    | cons j' joins' =>
      rw [List.forall_mem_cons] at h h'
      obtain ⟨hj, hjoins⟩ := List.cons_eq_cons.mp he
      rw [JoinClause.sql_inj h.1 h'.1 hj, ih h.2 h'.2 hjoins]

namespace Query

structure Fixed (q : Query) : Prop where
  projection : ∀ p ∈ q.projection, p.Fixed
  joins : ∀ j ∈ q.joins, j.condition = none
  filter : linksFixed q.filter

theorem sqlLines_canonical (q : Query) : q.canonical.sqlLines = q.sqlLines := by
  rw [sqlLines, canonical, Chain.clause_canonical]
  rfl

theorem sqlLines_inj {q q' : Query} (h : q.Fixed) (h' : q'.Fixed)
    (he : q.sqlLines = q'.sqlLines) : q.canonical = q'.canonical := by
  simp only [sqlLines, List.cons_append, List.append_assoc] at he
  obtain ⟨hfirst, he⟩ := List.cons_eq_cons.mp he
  obtain ⟨hdistinct, hprojection, hsource⟩ := firstLine_inj h.projection h'.projection hfirst
  -- The first two characters tell where the lines of one clause end and those of the next begin.
  have horder (q : Query) := (led_orderBy q.orderBy).append (led_limit q.limit)
  have hgroup (q : Query) := (led_groupBy q.groupBy).append (horder q)
  have hfilter (q : Query) := (led_clause q.filter).append (hgroup q)
  obtain ⟨hjoins, he⟩ := Led.append_inj (by decide) (led_joins _) (led_joins _) (hfilter q)
    (hfilter q') he
  obtain ⟨hclause, he⟩ := Led.append_inj (by decide) (led_clause _) (led_clause _) (hgroup q)
    (hgroup q') he
  obtain ⟨hgroups, he⟩ := Led.append_inj (by decide) (led_groupBy _) (led_groupBy _) (horder q)
    (horder q') he
  obtain ⟨horders, hlimits⟩ := Led.append_inj (by decide) (led_orderBy _) (led_orderBy _)
    (led_limit _) (led_limit _) he
  have hoption : ∀ {o o' : Option String}, o.toList = o'.toList → o = o' := by
    intro o o' h
    simpa using congrArg List.head? h
  have hlimit : q.limit = q'.limit :=
    Option.map_injective (fun _ _ => Limit.sql_inj) (hoption hlimits)
  have hcanonical : q.filter.canonical = q'.filter.canonical :=
    Chain.clause_inj h.filter h'.filter (hoption hclause)
  simp only [canonical, Query.mk.injEq]
  exact ⟨hdistinct, hprojection, hsource, joins_inj h.joins h'.joins hjoins, hcanonical,
    groupBySql_inj (hoption hgroups), orderBySql_inj (hoption horders), hlimit⟩

structure NoFreeText (q : Query) : Prop where
  projection : ∀ p ∈ q.projection, p.expr.isRaw = false
  joins : ∀ j ∈ q.joins, j.condition = none
  values : ∀ c ∈ q.filter.comparisons, ∀ v ∈ c.operand.values, v.isLiteral = false

end Query

theorem linksFixed_iff (links : List Link) :
    linksFixed links ↔ ∀ link ∈ links, link.predicate.Fixed := by
  induction links with
  | nil => simp [linksFixed]
  | cons link links ih =>
    obtain ⟨connective, p⟩ := link
    rw [linksFixed, ih, List.forall_mem_cons]
    rfl

theorem Survivor.runLink_fixed {run : List Survivor} {link : Link} (h : runLink run = some link)
    (hfixed : ∀ s ∈ run, s.comparison.Fixed) : link.predicate.Fixed := by
  match run, h with
  | [only], rfl => exact hfixed only List.mem_cons_self
  | first :: second :: rest, rfl =>
    refine ⟨rfl, (linksFixed_iff _).mpr ?_⟩
    intro link hlink
    rcases List.mem_cons.mp hlink with rfl | hlink
    · exact hfixed first List.mem_cons_self
    · obtain ⟨s, hs, rfl⟩ := List.mem_map.mp hlink
      exact hfixed s (List.mem_cons_of_mem _ hs)

namespace Config

theorem fixed_of_comparison {c : Config} (h : c.resolve.endpoint.query.NoFreeText)
    {comparison : Comparison} (hc : comparison ∈ c.resolve.endpoint.query.filter.comparisons) :
    comparison.Fixed := by
  obtain ⟨f, -, -, -, hoperand⟩ := exists_filter_of_comparison hc
  exact Operand.fixed_of_fits hoperand.fits (h.values comparison hc)

theorem filter_fixed {c : Config} (h : c.resolve.endpoint.query.NoFreeText) :
    linksFixed c.resolve.endpoint.query.filter := by
  rw [linksFixed_iff]
  intro link hlink
  have hsome : some link ∈ (Survivor.runs c.survivors).map Survivor.runLink := by
    rw [← c.filter_runs]
    exact List.mem_map_of_mem hlink
  obtain ⟨run, hrun, hlinked⟩ := List.mem_map.mp hsome
  apply Survivor.runLink_fixed hlinked
  intro s hs
  have hsurvivor : s ∈ c.survivors := by
    rw [← List.flatten_splitBy (fun before s => !before.startsRun s) c.survivors]
    exact List.mem_flatten_of_mem hrun hs
  apply fixed_of_comparison h
  rw [c.filter_comparisons]
  exact List.mem_map_of_mem hsurvivor

theorem query_fixed {c : Config} (h : c.resolve.endpoint.query.NoFreeText) :
    c.resolve.endpoint.query.Fixed where
  projection p hp := by
    obtain ⟨before, f, -, hcheck⟩ := Survey.exists_of_mem_results hp
    have hraw := h.projection p hp
    unfold Projection.Fixed
    cases he : p.expr with
    | raw text => rw [he] at hraw; cases hraw
    | column column => exact trivial
    | aggregate function column => exact (Field.aggregate_of_check hcheck he).1
  joins := h.joins
  filter := filter_fixed h

theorem query_checked {c : Config} (h : c.resolve.endpoint.query.NoFreeText) :
    c.resolve.endpoint.query.Checked where
  projection p hp text he := by
    have hraw := h.projection p hp
    rw [he] at hraw
    cases hraw
  joins := h.joins
  values comparison hc v hv := by
    obtain ⟨f, -, -, -, hoperand⟩ := exists_filter_of_comparison hc
    exact ⟨hoperand.fits.values v hv, h.values comparison hc v hv⟩

end Config

/-- Without free text two configurations have the same query text exactly if they have the same
query, up to the first connective of its filter. -/
theorem query_text_eq_iff {c c' : Config} (h : c.resolve.endpoint.query.NoFreeText)
    (h' : c'.resolve.endpoint.query.NoFreeText) (host : String) :
    (c.preview host).query = (c'.preview host).query ↔
      c.resolve.endpoint.query.canonical = c'.resolve.endpoint.query.canonical := by
  have hpieces : ∀ {c : Config}, c.resolve.endpoint.query.NoFreeText →
      Text.pieces '\n' (c.preview host).query = c.resolve.endpoint.query.sqlLines :=
    fun h => Query.pieces_sql (Config.query_checked h)
  constructor
  · intro he
    apply Query.sqlLines_inj (Config.query_fixed h) (Config.query_fixed h')
    rw [← hpieces h, ← hpieces h', he]
  · intro he
    have hlines := congrArg Query.sqlLines he
    rw [Query.sqlLines_canonical, Query.sqlLines_canonical] at hlines
    exact congrArg ("\n".intercalate ·) hlines

def keywordConfig : Config where
  primaryTable := "FROM"
  primaryName := some "AS"
  fields := [
    { column := "DISTINCT", asName := some "AS" },
    { column := "COUNT", asName := some "FROM", aggregation := .count }]
  joins := [{ table := "JOIN", kind := .left, leftColumn := "ON", rightColumn := "WHERE" }]
  filters := [
    { column := "BETWEEN", operator := some .between, source := .function, value := "now",
      secondValue := some "today" },
    { column := "AND", operator := some .between, source := .function }]

def paddedKeywordConfig : Config where
  primaryTable := " FROM"
  primaryName := some "AS\t"
  fields := [
    { column := " DISTINCT ", asName := some "AS" },
    { column := "COUNT", asName := some "FROM\n", aggregation := .count }]
  joins := [{ table := "JOIN", kind := .left, leftColumn := " ON", rightColumn := "WHERE " }]
  filters := [
    { column := "BETWEEN", operator := some .between, source := .function, value := " NOW",
      secondValue := some "today()", connective := .or },
    { column := " AND", operator := some .between, source := .parameter }]

theorem keywordConfig_query_eq :
    keywordConfig.resolve.endpoint.query.NoFreeText ∧
      paddedKeywordConfig.resolve.endpoint.query.NoFreeText ∧
      (keywordConfig.preview defaultHost).query = "SELECT DISTINCT AS AS, COUNT(COUNT) AS FROM " ++
        "FROM FROM AS AS\nLEFT JOIN JOIN ON AS.ON = JOIN.WHERE\n" ++
        "WHERE BETWEEN BETWEEN NOW() AND TODAY() AND AND BETWEEN\nGROUP BY DISTINCT" ∧
      keywordConfig.resolve.endpoint.query.canonical =
        paddedKeywordConfig.resolve.endpoint.query.canonical ∧
      keywordConfig.resolve.endpoint.query.filter.map Link.connective = [.and, .and] ∧
      paddedKeywordConfig.resolve.endpoint.query.filter.map Link.connective = [.or, .and] := by
  have h : keywordConfig.resolve.endpoint.query.NoFreeText := ⟨by decide, by decide, by decide⟩
  have h' : paddedKeywordConfig.resolve.endpoint.query.NoFreeText :=
    ⟨by decide, by decide, by decide⟩
  have he : (keywordConfig.preview defaultHost).query =
      (paddedKeywordConfig.preview defaultHost).query := by decide +kernel
  exact ⟨h, h', by decide +kernel, (query_text_eq_iff h h' defaultHost).mp he, by decide, by decide⟩

end EndpointPreview
