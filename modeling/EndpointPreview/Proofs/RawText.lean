import EndpointPreview.Proofs.Alike
import EndpointPreview.Proofs.OutputColumns
/-!
Text that goes into the query as it stands: the expressions of fields and the conditions of joins.
Two configurations that differ in such text only are checked in step: their nodes differ in that
text, and where a field has a name of its own, all that is shown beside the query asks for that name.
-/

namespace EndpointPreview

inductive Check.Rel {α β : Type} (R : α → β → Prop) : Check α → Check β → Prop
  | none (flaws : List Flaw) : Rel R ⟨.none, flaws⟩ ⟨.none, flaws⟩
  | some {a : α} {b : β} (h : R a b) (flaws : List Flaw) : Rel R ⟨.some a, flaws⟩ ⟨.some b, flaws⟩

namespace Check.Rel

variable {α β γ δ : Type} {R : α → β → Prop} {S : γ → δ → Prop}

theorem refl {R : α → α → Prop} (h : ∀ a, R a a) (c : Check α) : Check.Rel R c c := by
  obtain ⟨result, flaws⟩ := c
  cases result with
  | none => exact .none flaws
  | some a => exact .some (h a) flaws

theorem bind {c : Check α} {d : Check β} {next : α → Check γ} {next' : β → Check δ}
    (h : Check.Rel R c d)
    (hnext : ∀ a b, c.result = Option.some a → R a b → Check.Rel S (next a) (next' b)) :
    Check.Rel S (c >>= next) (d >>= next') := by
  cases h with
  | none flaws => exact .none flaws
  | @some a b hab flaws =>
    have hrest := hnext a b rfl hab
    change Check.Rel S ⟨(next a).result, flaws ++ (next a).flaws⟩
      ⟨(next' b).result, flaws ++ (next' b).flaws⟩
    generalize next a = checked at hrest ⊢
    generalize next' b = checked' at hrest ⊢
    cases hrest with
    | none more => exact .none _
    | some h more => exact .some h _

end Check.Rel

/-- Surveys of two lists, if the checks of entries that stand in one place are in step after results
that are. -/
theorem Survey.startingAt_rel {α β σ τ : Type} {R : α → β → Prop} {list : EntryList}
    {check : List α → σ → Check α} {check' : List β → τ → Check β} {entries : List σ}
    {others : List τ}
    (h : List.Forall₂ (fun entry other => ∀ before before', List.Forall₂ R before before' →
      Check.Rel R (check before entry) (check' before' other)) entries others)
    {before : List α} {before' : List β} (hbefore : List.Forall₂ R before before') (start : Nat) :
    List.Forall₂ R (startingAt list check before start entries).results
        (startingAt list check' before' start others).results ∧
      (startingAt list check' before' start others).diagnostics =
        (startingAt list check before start entries).diagnostics := by
  induction h generalizing before before' start with
  | nil => exact ⟨.nil, rfl⟩
  | @cons entry other entries others hentry _ ih =>
    have hchecked := hentry before before' hbefore
    rw [startingAt, startingAt]
    generalize check before entry = checked at hchecked
    generalize check' before' other = checked' at hchecked
    cases hchecked with
    | none flaws =>
      simp only [Option.toList_none, List.append_nil, List.nil_append]
      obtain ⟨hresults, hdiagnostics⟩ := ih hbefore (start + 1)
      exact ⟨hresults, by rw [hdiagnostics]⟩
    | @some a b hab flaws =>
      simp only [Option.toList_some, List.singleton_append]
      obtain ⟨hresults, hdiagnostics⟩ := ih (List.rel_append hbefore (.cons hab .nil)) (start + 1)
      exact ⟨.cons hab hresults, by rw [hdiagnostics]⟩

namespace Config

inductive Field.SameButText (f : Field) : Field → Prop
  | refl : f.SameButText f
  | text (expression : Option String) (hname : (f.asName.bind Text.filled).isSome = true)
      (hbefore : (f.expression.bind Text.filled).isSome = true)
      (hafter : (expression.bind Text.filled).isSome = true) :
      f.SameButText { f with expression }

def Join.SameButText (j k : Join) : Prop :=
  k = { j with condition := k.condition }

/-- The configurations differ at most in the conditions of joins and the expressions of fields that
have a name. -/
structure SameButText (c d : Config) : Prop where
  frame : d = { c with joins := d.joins, fields := d.fields }
  joins : List.Forall₂ Join.SameButText c.joins d.joins
  fields : List.Forall₂ Field.SameButText c.fields d.fields

end Config

inductive Projection.SameButText (fields : List (Config.Field × Config.Field)) :
    Projection → Projection → Prop
  | refl (p : Projection) : SameButText fields p p
  | text {f g : Config.Field} {name : Ident} {before after : String} (hmem : (f, g) ∈ fields)
      (hname : f.asName.bind Text.filled = some name.text)
      (hbefore : f.expression.bind Text.filled = some before)
      (hafter : g.expression.bind Text.filled = some after) :
      SameButText fields ⟨.raw before, some name⟩ ⟨.raw after, some name⟩

def JoinClause.SameButText (joins : List (Config.Join × Config.Join)) (l m : JoinClause) : Prop :=
  ∃ j k, (j, k) ∈ joins ∧ l.condition = j.condition.bind Text.filled ∧
    m = { l with condition := k.condition.bind Text.filled }

namespace Projection.SameButText

variable {fields : List (Config.Field × Config.Field)} {p q : Projection}

theorem outputName (h : p.SameButText fields q) : q.outputName = p.outputName := by
  cases h <;> rfl

theorem isAggregate (h : p.SameButText fields q) : q.expr.isAggregate = p.expr.isAggregate := by
  cases h <;> rfl

theorem sample (h : p.SameButText fields q) : q.sample = p.sample := by
  rw [Projection.sample, h.isAggregate, Projection.sample]

section

variable {ps qs : List Projection} (h : List.Forall₂ (Projection.SameButText fields) ps qs)

include h

theorem map_eq {β : Type} {f : Projection → β}
    (hf : ∀ p q, p.SameButText fields q → f q = f p) : qs.map f = ps.map f := by
  induction h with
  | nil => rfl
  | cons hp _ ih => rw [List.map_cons, List.map_cons, hf _ _ hp, ih]

theorem outputNames : qs.map Projection.outputName = ps.map Projection.outputName :=
  map_eq h fun _ _ hp => hp.outputName

theorem grouping : EndpointPreview.grouping qs = EndpointPreview.grouping ps := by
  have hany : (qs.any fun p => p.expr.isAggregate) = ps.any fun p => p.expr.isAggregate := by
    have hmap := congrArg (List.any · id) (map_eq h fun _ _ hp => hp.isAggregate)
    simpa only [List.any_map, Function.id_comp] using hmap
  have hcolumns : ∀ column : Projection → Option ColumnRef,
      (∀ p q, p.SameButText fields q → column q = column p) →
        qs.filterMap column = ps.filterMap column := by
    intro column hcolumn
    have hmap := congrArg (List.filterMap id) (map_eq h hcolumn)
    simpa only [List.filterMap_map, Function.id_comp] using hmap
  rw [EndpointPreview.grouping, hany, hcolumns _ fun p q hp => by cases hp <;> rfl,
    EndpointPreview.grouping]

theorem sampleRow (q : Query) (hq : q.projection = ps) (joins : List JoinClause) :
    Query.sampleRow { q with projection := qs, joins } = q.sampleRow := by
  have hput := congrArg (List.foldl (fun row entry => Keyed.put entry.1 entry.2 row) [])
    (map_eq h fun p q hp => show (q.outputName, q.sample) = (p.outputName, p.sample) by
      rw [hp.outputName, hp.sample])
  rw [List.foldl_map, List.foldl_map] at hput
  have hempty : qs = [] ↔ ps = [] := by
    rw [← List.length_eq_zero_iff, ← List.length_eq_zero_iff, h.length_eq]
  simp only [Query.sampleRow, hq, hempty, hput]

end

end Projection.SameButText

namespace Endpoint

variable {fields : List (Config.Field × Config.Field)} {e : Endpoint} {projection : List Projection}

section

variable (h : List.Forall₂ (Projection.SameButText fields) e.query.projection projection)
    (joins : List JoinClause)

include h

theorem url_with_text (host : String) :
    Endpoint.url { e with query := { e.query with projection, joins } } host = e.url host := by
  have hnames : (projection.take 2).map Projection.outputName =
      (e.query.projection.take 2).map Projection.outputName := by
    rw [List.map_take, List.map_take, Projection.SameButText.outputNames h]
  have hfields : Endpoint.fieldsPair { e with query := { e.query with projection, joins } } =
      e.fieldsPair := by
    simp only [fieldsPair, hnames]
  have hpairs : Endpoint.pairs { e with query := { e.query with projection, joins } } =
      e.pairs := by
    rw [pairs, hfields]
    rfl
  rw [url, queryText, hpairs]
  rfl

theorem response_with_text :
    Endpoint.response { e with query := { e.query with projection, joins } } = e.response := by
  simp only [response, payload, Projection.SameButText.sampleRow h e.query rfl joins]
  rfl

end

end Endpoint

namespace Config

theorem Field.SameButText.checkExpr {f g : Field} {fields : List (Field × Field)}
    (h : f.SameButText g) (hmem : (f, g) ∈ fields) {asName : Option Ident}
    (hname : (checkAsName f.asName).result = some asName) :
    Check.Rel (fun e e' => Projection.SameButText fields ⟨e, asName⟩ ⟨e', asName⟩)
      f.checkExpr g.checkExpr := by
  cases h with
  | refl => exact .refl (fun e => .refl ⟨e, asName⟩) _
  | text expression hfilled hbefore hafter =>
    obtain ⟨before, hbefore⟩ := Option.isSome_iff_exists.mp hbefore
    obtain ⟨after, hafter⟩ := Option.isSome_iff_exists.mp hafter
    have hsame := checkAsName_result_eq_some hname
    cases asName with
    | none =>
      rw [← hsame] at hfilled
      cases hfilled
    | some name =>
      simp only [Field.checkExpr, hbefore, hafter]
      exact .some (.text hmem hsame.symm hbefore hafter) []

theorem Field.SameButText.check {f g : Field} {fields : List (Field × Field)}
    (h : f.SameButText g) (hmem : (f, g) ∈ fields) {before before' : List Projection}
    (hbefore : List.Forall₂ (Projection.SameButText fields) before before') :
    Check.Rel (Projection.SameButText fields) (f.check before) (g.check before') := by
  have henabled : g.enabled = f.enabled := by cases h <;> rfl
  have hasName : g.asName = f.asName := by cases h <;> rfl
  unfold Field.check
  rw [henabled, hasName]
  split
  · apply Check.Rel.bind (.refl (R := Eq) (fun _ => rfl) _)
    rintro asName _ hname rfl
    apply (h.checkExpr hmem hname).bind
    intro e e' _ he
    dsimp only
    -- Both fields have the same name to be told apart by, so both are refused or none is.
    rw [Projection.SameButText.outputNames hbefore, he.outputName]
    split
    · exact .none _
    · exact .some he _
  · exact .none _

theorem Join.SameButText.check {j k : Join} {joins : List (Join × Join)} (h : j.SameButText k)
    (hmem : (j, k) ∈ joins) (source : Option TableRef) :
    Check.Rel (JoinClause.SameButText joins) (j.check source) (k.check source) := by
  have hnames : k.checkNames = j.checkNames := by rw [h]; rfl
  have hwanted : (k.enabled && k.isComplete) = (j.enabled && j.isComplete) := by rw [h]; rfl
  have hkind : k.kind = j.kind := by rw [h]
  unfold Join.check
  rw [hwanted, hnames, hkind]
  split
  · apply Check.Rel.bind (.refl (R := Eq) (fun _ => rfl) _)
    rintro ⟨table, left, right⟩ _ _ rfl
    cases source with
    | none => exact .none _
    | some primary => exact .some ⟨j, k, hmem, rfl, rfl⟩ _
  · exact .none _

namespace SameButText

variable {c d : Config} (h : c.SameButText d)

include h

theorem selection :
    List.Forall₂ (Projection.SameButText (c.fields.zip d.fields)) c.selection.results
        d.selection.results ∧
      d.selection.diagnostics = c.selection.diagnostics := by
  apply Survey.startingAt_rel _ .nil
  apply List.forall₂_iff_zip.mpr
  refine ⟨h.fields.length_eq, ?_⟩
  intro f g hmem before before' hbefore
  exact ((List.forall₂_iff_zip.mp h.fields).2 hmem).check hmem hbefore

theorem joinSurvey (source : Option TableRef) :
    List.Forall₂ (JoinClause.SameButText (c.joins.zip d.joins)) (c.joinSurvey source).results
        (d.joinSurvey source).results ∧
      (d.joinSurvey source).diagnostics = (c.joinSurvey source).diagnostics := by
  apply Survey.startingAt_rel _ .nil
  apply List.forall₂_iff_zip.mpr
  refine ⟨h.joins.length_eq, ?_⟩
  intro j k hmem _ _ _
  exact ((List.forall₂_iff_zip.mp h.joins).2 hmem).check hmem source

theorem checkSource : d.checkSource = c.checkSource := by
  rw [h.frame]
  exact checkSource_congr rfl rfl

theorem endpoint : d.resolve.endpoint =
    { c.resolve.endpoint with
      query := { c.resolve.endpoint.query with
        projection := d.selection.results
        joins := (d.joinSurvey c.checkSource.1).results } } := by
  have hgrouping := Projection.SameButText.grouping h.selection.1
  rw [resolve_endpoint, resolve_endpoint, h.checkSource, hgrouping]
  rw [h.frame]
  rfl

theorem diagnostics : d.resolve.diagnostics = c.resolve.diagnostics := by
  rw [resolve_diagnostics, resolve_diagnostics, h.checkSource, h.selection.2, (h.joinSurvey _).2]
  rw [h.frame]
  rfl

end SameButText

end Config

theorem raw_text_stays_in_query (c d : Config) (host : String) (h : c.SameButText d) :
    (d.preview host).url = (c.preview host).url ∧
    (d.preview host).response = (c.preview host).response ∧
    (d.preview host).diagnostics = (c.preview host).diagnostics ∧
    ∃ projection joins,
      d.resolve.endpoint.query = { c.resolve.endpoint.query with projection, joins } ∧
      List.Forall₂ (Projection.SameButText (c.fields.zip d.fields))
        c.resolve.endpoint.query.projection projection ∧
      List.Forall₂ (JoinClause.SameButText (c.joins.zip d.joins))
        c.resolve.endpoint.query.joins joins := by
  have hprojection : List.Forall₂ (Projection.SameButText (c.fields.zip d.fields))
      c.resolve.endpoint.query.projection d.selection.results := h.selection.1
  refine ⟨?_, ?_, h.diagnostics, d.selection.results, (d.joinSurvey c.checkSource.1).results,
    ?_, hprojection, (h.joinSurvey _).1⟩
  · rw [Config.preview, Config.preview, h.endpoint]
    exact Endpoint.url_with_text hprojection _ host
  · rw [Config.preview, Config.preview, h.endpoint]
    exact Endpoint.response_with_text hprojection _
  · rw [h.endpoint]

theorem raw_text_stays_in_query_of_total :
    let c : Config := {
      primaryTable := "orders"
      joins := [{ table := "users", leftColumn := "user_id", rightColumn := "id" }]
      fields := [
        { column := "id" },
        { expression := some "1", asName := some "total" },
        { expression := some "2", asName := some "no name" }] }
    let d : Config := { c with
      joins := [{
        table := "users", leftColumn := "user_id", rightColumn := "id",
        condition := some "OR true" }]
      fields := [
        { column := "id" },
        { expression := some "id", asName := some "total" },
        { expression := some "(", asName := some "no name" }] }
    c.SameButText d ∧ d.resolve.endpoint.query.sql ≠ c.resolve.endpoint.query.sql ∧
    c.resolve.diagnostics ≠ [] ∧ (d.preview "host").url = (c.preview "host").url ∧
    (d.preview "host").response = (c.preview "host").response ∧
    (d.preview "host").diagnostics = (c.preview "host").diagnostics := by
  intro c d
  have htotal : Config.Field.SameButText { expression := some "1", asName := some "total" }
      { expression := some "id", asName := some "total" } := .text _ rfl rfl rfl
  have hnoName : Config.Field.SameButText { expression := some "2", asName := some "no name" }
      { expression := some "(", asName := some "no name" } := .text _ rfl rfl rfl
  have h : c.SameButText d := ⟨rfl, .cons rfl .nil, .cons .refl (.cons htotal (.cons hnoName .nil))⟩
  obtain ⟨hurl, hresponse, hdiagnostics, -⟩ := raw_text_stays_in_query c d "host" h
  exact ⟨h, by decide +kernel, by decide +kernel, hurl, hresponse, hdiagnostics⟩

end EndpointPreview
