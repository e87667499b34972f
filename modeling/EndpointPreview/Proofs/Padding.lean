import EndpointPreview.Proofs.Alike
import EndpointPreview.Proofs.EntryChecks
import EndpointPreview.Proofs.PaddedLists
/-!
Blank characters around the texts of a configuration. Every text is trimmed before it is looked at,
but for a list of literals: its reader skips the spacing around quoted items only, so other blank
characters beside a quote let the commas in it part its item.
-/

namespace EndpointPreview

open Text

namespace Text

def Pads (s t : String) : Prop :=
  ∃ before after, blank before = true ∧ blank after = true ∧ t = before ++ s ++ after

variable {s t : String} {text padded : Option String}

theorem Pads.trim (h : Pads s t) : Text.trim t = Text.trim s := by
  obtain ⟨before, after, hbefore, hafter, rfl⟩ := h
  rw [blank, List.all_eq_true] at hbefore hafter
  rw [← String.toList_inj, toList_trim, toList_trim, String.toList_append, String.toList_append,
    trimChars_append_blank hafter, trimChars_blank_append hbefore]

theorem Pads.blank (h : Pads s t) : Text.blank t = Text.blank s := by
  rw [Bool.eq_iff_iff, blank_iff, blank_iff, h.trim]

theorem Pads.filled (h : Pads s t) : Text.filled t = Text.filled s := by
  rw [Text.filled, h.blank, h.trim, Text.filled]

theorem filled_of_pads (h : Option.Rel Pads text padded) :
    padded.bind Text.filled = text.bind Text.filled := by
  cases h with
  | none => rfl
  | some h => exact h.filled

end Text

theorem checkIdent_of_pads {s t : String} (h : Pads s t) (part : Part) :
    checkIdent part t = checkIdent part s := by
  have hident : Ident.ofText? t = Ident.ofText? s := by
    ext name
    rw [Ident.ofText?_eq_some, Ident.ofText?_eq_some, h.trim]
  rw [checkIdent, hident, h.trim, checkIdent]

theorem checkColumn_of_pads {s t : String} (h : Pads s t) (part : Part) :
    checkColumn part t = checkColumn part s := by
  have hcolumn : ColumnRef.ofText? t = ColumnRef.ofText? s := by
    ext column
    rw [ColumnRef.ofText?_eq_some, ColumnRef.ofText?_eq_some, h.trim]
  rw [checkColumn, hcolumn, h.trim, checkColumn]

theorem checkAsName_of_pads {text padded : Option String} (h : Option.Rel Pads text padded) :
    checkAsName padded = checkAsName text := by
  rw [checkAsName, filled_of_pads h, checkAsName]

theorem checkValue_of_pads {s t : String} (h : Pads s t) (declared : List String)
    (source : ValueSource) (part : Part) :
    checkValue declared source part t = checkValue declared source part s := by
  rw [checkValue, h.filled, checkValue]

namespace Config

structure Field.Pads (f g : Field) : Prop where
  column : Text.Pads f.column g.column
  expression : Option.Rel Text.Pads f.expression g.expression
  asName : Option.Rel Text.Pads f.asName g.asName
  aggregation : g.aggregation = f.aggregation
  enabled : g.enabled = f.enabled

theorem Field.Pads.check {f g : Field} (h : f.Pads g) (before : List Projection) :
    g.check before = f.check before := by
  have hexpr : g.checkExpr = f.checkExpr := by
    simp only [checkExpr, filled_of_pads h.expression, h.aggregation, h.column.blank,
      checkColumn_of_pads h.column]
  simp only [Field.check, h.enabled, checkAsName_of_pads h.asName, hexpr]

structure Join.Pads (j k : Join) : Prop where
  table : Text.Pads j.table k.table
  asName : Option.Rel Text.Pads j.asName k.asName
  leftColumn : Text.Pads j.leftColumn k.leftColumn
  rightColumn : Text.Pads j.rightColumn k.rightColumn
  condition : Option.Rel Text.Pads j.condition k.condition
  kind : k.kind = j.kind
  enabled : k.enabled = j.enabled

theorem Join.Pads.check {j k : Join} (h : j.Pads k) (source : Option TableRef) :
    k.check source = j.check source := by
  have hcomplete : k.isComplete = j.isComplete := by
    simp only [isComplete, h.table.blank, h.leftColumn.blank, h.rightColumn.blank]
  have hnames : k.checkNames = j.checkNames := by
    simp only [checkNames, checkIdent_of_pads h.table, checkAsName_of_pads h.asName,
      checkIdent_of_pads h.leftColumn, checkIdent_of_pads h.rightColumn]
  simp only [Join.check, h.enabled, h.kind, hcomplete, hnames, filled_of_pads h.condition]

structure Filter.Pads (f g : Filter) : Prop where
  column : Text.Pads f.column g.column
  value : Text.Pads f.value g.value
  secondValue : Option.Rel Text.Pads f.secondValue g.secondValue
  group : Option.Rel Text.Pads f.group g.group
  operator : g.operator = f.operator
  source : g.source = f.source
  connective : g.connective = f.connective
  enabled : g.enabled = f.enabled
  startsGroup : g.startsGroup = f.startsGroup

def Filter.KeepsItems (f g : Filter) : Prop :=
  f.enabled = true → f.source = .static →
    (∃ operator, f.operator = some operator ∧ operator.arity = .list) →
    ∃ before after, blank before = true ∧ blank after = true ∧
      g.value = before ++ f.value ++ after ∧
      ValueText.KeepsItems before.toList f.value.toList after.toList

theorem Filter.Pads.checkOperand {f g : Filter} (h : f.Pads g) (declared : List String)
    (operator : Operator)
    (hitems : f.source = .static → operator.arity = .list →
      ValueText.literals g.value = ValueText.literals f.value) :
    g.checkOperand declared operator = f.checkOperand declared operator := by
  unfold Filter.checkOperand
  split
  · rfl
  · rw [h.source, checkValue_of_pads h.value]
  · simp only [checkRange, h.source, checkValue_of_pads h.value, filled_of_pads h.secondValue]
  · next ha =>
    have hlist : g.checkList declared = f.checkList declared := by
      unfold checkList
      rw [h.source]
      split
      · next hs => rw [hitems hs ha]
      · rw [checkValue_of_pads h.value]
    rw [hlist]

theorem Filter.Pads.check {f g : Filter} (h : f.Pads g) (hkeeps : f.KeepsItems g)
    (declared : List String) : g.check declared = f.check declared := by
  have hgroup : g.groupName = f.groupName := filled_of_pads h.group
  by_cases he : f.enabled = true
  · unfold Filter.check
    rw [h.operator]
    split
    · rfl
    · next operator ho =>
      have hoperand : g.checkOperand declared operator = f.checkOperand declared operator := by
        apply h.checkOperand
        intro hs ha
        obtain ⟨before, after, hbefore, hafter, hvalue, hitems⟩ := hkeeps he hs ⟨operator, ho, ha⟩
        rw [hvalue, ValueText.literals_pad hbefore hafter hitems]
      have hcomparison : g.checkComparison declared operator =
          f.checkComparison declared operator := by
        simp only [checkComparison, checkColumn_of_pads h.column, hoperand]
      rw [h.enabled, h.column.blank, hcomparison, h.connective, hgroup, h.startsGroup]
  · have hoff : f.enabled = false := Bool.eq_false_iff.mpr he
    rw [check_disabled declared hoff, check_disabled declared (h.enabled.trans hoff)]

structure SortKey.Pads (s t : SortKey) : Prop where
  column : Text.Pads s.column t.column
  direction : t.direction = s.direction
  enabled : t.enabled = s.enabled

theorem SortKey.Pads.check {s t : SortKey} (h : s.Pads t) : t.check = s.check := by
  simp only [SortKey.check, h.enabled, h.column.blank, checkColumn_of_pads h.column, h.direction]

structure Param.Pads (p q : Param) : Prop where
  name : Text.Pads p.name q.name
  rest : q = { p with name := q.name }

theorem Param.Pads.check {p q : Param} (h : p.Pads q) : q.check = p.check := by
  have hname := h.name
  rw [h.rest]
  simp only [Param.check, hname.blank, checkIdent_of_pads hname]

structure Pads (c d : Config) : Prop where
  frame : d.frame = c.frame
  path : Text.Pads c.path d.path
  primaryTable : Text.Pads c.primaryTable d.primaryTable
  primaryName : Option.Rel Text.Pads c.primaryName d.primaryName
  fields : List.Forall₂ Field.Pads c.fields d.fields
  joins : List.Forall₂ Join.Pads c.joins d.joins
  filters : List.Forall₂ Filter.Pads c.filters d.filters
  sorting : List.Forall₂ SortKey.Pads c.sorting d.sorting
  params : List.Forall₂ Param.Pads c.params d.params

def pad (before after : String) (c : Config) : Config :=
  let around (s : String) := before ++ s ++ after
  { c with
    path := around c.path
    primaryTable := around c.primaryTable
    primaryName := c.primaryName.map around
    fields := c.fields.map fun f => { f with
      column := around f.column, expression := f.expression.map around
      asName := f.asName.map around }
    joins := c.joins.map fun j => { j with
      table := around j.table, asName := j.asName.map around, leftColumn := around j.leftColumn
      rightColumn := around j.rightColumn, condition := j.condition.map around }
    filters := c.filters.map fun f => { f with
      column := around f.column, value := around f.value
      secondValue := f.secondValue.map around, group := f.group.map around }
    sorting := c.sorting.map fun s => { s with column := around s.column }
    params := c.params.map fun p => { p with name := around p.name } }

theorem pads_pad {before after : String} (hbefore : blank before = true)
    (hafter : blank after = true) (c : Config) : c.Pads (c.pad before after) := by
  have htext (s : String) : Text.Pads s (before ++ s ++ after) :=
    ⟨before, after, hbefore, hafter, rfl⟩
  have hoption (text : Option String) :
      Option.Rel Text.Pads text (text.map (before ++ · ++ after)) := by
    cases text with
    | none => exact .none
    | some s => exact .some (htext s)
  constructor
  · rfl
  · exact htext _
  · exact htext _
  · exact hoption _
  · exact List.forall₂_map_right_iff.mpr (List.forall₂_same.mpr fun f _ =>
      ⟨htext _, hoption _, hoption _, rfl, rfl⟩)
  · exact List.forall₂_map_right_iff.mpr (List.forall₂_same.mpr fun j _ =>
      ⟨htext _, hoption _, htext _, htext _, hoption _, rfl, rfl⟩)
  · exact List.forall₂_map_right_iff.mpr (List.forall₂_same.mpr fun f _ =>
      ⟨htext _, htext _, hoption _, hoption _, rfl, rfl, rfl, rfl, rfl⟩)
  · exact List.forall₂_map_right_iff.mpr (List.forall₂_same.mpr fun s _ => ⟨htext _, rfl, rfl⟩)
  · exact List.forall₂_map_right_iff.mpr (List.forall₂_same.mpr fun p _ => ⟨htext _, rfl⟩)

variable {c d : Config}

theorem Pads.alike (h : c.Pads d)
    (hlists : ∀ f g, (f, g) ∈ c.filters.zip d.filters → f.KeepsItems g) : c.Alike d where
  frame := h.frame
  path := h.path.trim
  source := by simp only [checkSource, h.primaryTable.filled, filled_of_pads h.primaryName]
  fields := h.fields.imp fun _ _ hf => hf.check
  joins := h.joins.imp fun _ _ hj => hj.check
  filters := by
    apply List.forall₂_iff_zip.mpr ⟨h.filters.length_eq, ?_⟩
    intro f g hfg
    exact (List.forall₂_zip h.filters hfg).check (hlists f g hfg)
  sorting := h.sorting.imp fun _ _ hs => hs.check
  params := h.params.imp fun _ _ hp => hp.check

end Config

/-- Blank characters around the texts of a configuration change nothing, as long as those around a
list of literals keep its items. -/
theorem preview_padded (c d : Config) (host : String) (h : c.Pads d)
    (hlists : ∀ f g, (f, g) ∈ c.filters.zip d.filters → f.KeepsItems g) :
    d.preview host = c.preview host :=
  (h.alike hlists).preview host

def crowdedConfig : Config where
  path := "users/{id}"
  primaryTable := "users"
  primaryName := some "u"
  fields := [{ column := "u.id", asName := some "bad name" }, { expression := some "count(*)" }]
  joins := [{
    table := "orders", leftColumn := "id", rightColumn := "user_id"
    condition := some "u.id = orders.user_id" }]
  filters := [
    { column := "kind", operator := some .inList, value := "x, 'y,z', 0" },
    { column := "age", operator := some .between, value := "1", secondValue := some "9" }]
  sorting := [{ column := "u.id" }]
  params := [{ name := "top", kind := .number }]

theorem crowdedConfig_padded :
    crowdedConfig.Pads (crowdedConfig.pad "\u3000" "\u00a0") ∧
      (crowdedConfig.pad "\u3000" "\u00a0").preview defaultHost =
        crowdedConfig.preview defaultHost := by
  have hpads := Config.pads_pad (by decide : blank "\u3000" = true)
    (by decide : blank "\u00a0" = true) crowdedConfig
  refine ⟨hpads, preview_padded _ _ defaultHost hpads ?_⟩
  intro f g hfg _ _ ⟨operator, ho, ha⟩
  simp only [crowdedConfig, Config.pad, List.map_cons, List.map_nil, List.zip_cons_cons,
    List.zip_nil_right, List.mem_cons, List.not_mem_nil, or_false, Prod.mk.injEq] at hfg
  rcases hfg with ⟨rfl, rfl⟩ | ⟨rfl, rfl⟩
  · exact ⟨"\u3000", "\u00a0", by decide, by decide, rfl, .inr ⟨.inr (by decide), .inr (by decide)⟩⟩
  · cases ho
    cases ha

def pairConfig : Config where
  filters := [{ column := "s", operator := some .inList, value := "'a,b'" }]

theorem padded_pair_torn :
    pairConfig.Pads (pairConfig.pad "\u00a0" "") ∧
      (pairConfig.preview defaultHost).query = "SELECT *\nWHERE s IN ('a,b')" ∧
      ((pairConfig.pad "\u00a0" "").preview defaultHost).query = "SELECT *\nWHERE s IN ('a, b')" := by
  exact ⟨Config.pads_pad (by decide) (by decide) _, by decide +kernel, by decide +kernel⟩

end EndpointPreview
