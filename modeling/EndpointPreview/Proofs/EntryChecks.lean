import EndpointPreview.Proofs.CheckLaws
/-!
What the check of an entry yields: nothing but the node that the texts of the entry describe, and
a flaw in place of the node where the entry is enabled and complete.
-/

namespace EndpointPreview

structure Check.Answers {α : Type} (checked : Check α) (enabled wanted : Prop)
    (Describes : α → Prop) : Prop where
  loud : wanted → checked.Loud
  quiet : ¬enabled → checked.flaws = []
  wanted : ∀ a, checked.result = some a → wanted
  describes : ∀ a, checked.result = some a → Describes a

namespace Config

namespace Field

def isComplete (f : Field) : Bool :=
  (f.expression.bind Text.filled).isSome || !Text.blank f.column || f.aggregation == .count

def Describes (f : Field) (p : Projection) : Prop :=
  p.asName.map Ident.text = f.asName.bind Text.filled ∧
    match f.expression.bind Text.filled, p.expr with
    | some text, expr => expr = .raw text
    | none, .raw _ => False
    | none, .column c => f.aggregation = .none ∧ some c.text = Text.filled f.column
    | none, .aggregate function c =>
      f.aggregation = function ∧ function ≠ .none ∧ (c = none → function = .count) ∧
        c.map ColumnRef.text = Text.filled f.column

theorem check_disabled {f : Field} (h : f.enabled = false) (before : List Projection) :
    f.check before = .skip := by
  simp [check, h]

theorem checkExpr_loud {f : Field} (h : f.isComplete = true) : f.checkExpr.Loud := by
  unfold checkExpr
  split
  · exact .pass _
  · next hraw =>
    split
    · exact .pass _
    · next hblank hcount =>
      simp only [isComplete, hraw, hblank, Option.isSome_none, Bool.not_true, Bool.or_self,
        Bool.false_or, beq_iff_eq] at h
      exact absurd h hcount
    · exact (checkColumn_loud _ _).map _
    · exact (checkColumn_loud _ _).map _

theorem check_loud {f : Field} (he : f.enabled = true) (hc : f.isComplete = true)
    (before : List Projection) : (f.check before).Loud := by
  unfold check
  rw [if_pos he]
  apply (checkAsName_loud _).bind
  intro asName
  apply (checkExpr_loud hc).bind
  intro expr
  dsimp only
  split
  · exact .refuse _ _
  · exact .pass _

theorem enabled_of_check {f : Field} {before : List Projection} {p : Projection}
    (h : (f.check before).result = some p) : f.enabled = true := by
  by_contra hd
  rw [check_disabled (Bool.eq_false_iff.mpr hd)] at h
  cases h

theorem isComplete_of_describes {f : Field} {p : Projection} (h : f.Describes p) :
    f.isComplete = true := by
  obtain ⟨-, h⟩ := h
  unfold isComplete
  cases hraw : f.expression.bind Text.filled with
  | some text => simp
  | none =>
    rw [hraw] at h
    cases hexpr : p.expr with
    | raw text => simp [hexpr] at h
    | column c =>
      simp only [hexpr] at h
      simp [(filled_eq_some.mp h.2.symm).1]
    | aggregate function c =>
      simp only [hexpr] at h
      obtain ⟨hfun, -, hcount, hcolumn⟩ := h
      cases c with
      | none => simp [hfun, hcount rfl]
      | some c => simp [(filled_eq_some.mp hcolumn.symm).1]

theorem describes_of_check {f : Field} {before : List Projection} {p : Projection}
    (h : (f.check before).result = some p) : f.Describes p := by
  have he : f.enabled = true := enabled_of_check h
  unfold check at h
  rw [if_pos he, Check.bind_result] at h
  obtain ⟨asName, hname, h⟩ := Option.bind_eq_some_iff.mp h
  rw [Check.bind_result] at h
  obtain ⟨expr, hexpr, h⟩ := Option.bind_eq_some_iff.mp h
  have hp : p = ⟨expr, asName⟩ := by
    dsimp only at h
    split at h <;> cases h
    rfl
  subst hp
  refine ⟨checkAsName_result_eq_some hname, ?_⟩
  unfold checkExpr at hexpr
  split at hexpr
  · next text htext =>
    cases hexpr
    simp [htext]
  · next hraw =>
    simp only [hraw]
    split at hexpr
    · next hcount hblank =>
      cases hexpr
      simp [hcount, filled_eq_none.mpr hblank]
    · cases hexpr
    · next hnone hblank =>
      rw [Check.map_result, checkColumn_result] at hexpr
      obtain ⟨c, hcol, rfl⟩ := Option.map_eq_some_iff.mp hexpr
      refine ⟨hnone, ?_⟩
      exact (filled_eq_some.mpr ⟨hblank, (ColumnRef.ofText?_eq_some.mp hcol).symm⟩).symm
    · next hblank hsome =>
      rw [Check.map_result, checkColumn_result] at hexpr
      obtain ⟨c, hcol, rfl⟩ := Option.map_eq_some_iff.mp hexpr
      refine ⟨rfl, hsome, by simp, ?_⟩
      exact (filled_eq_some.mpr ⟨hblank, (ColumnRef.ofText?_eq_some.mp hcol).symm⟩).symm

theorem check_answers (f : Field) (before : List Projection) :
    (f.check before).Answers (f.enabled = true) (f.enabled = true ∧ f.isComplete = true)
      f.Describes where
  loud h := check_loud h.1 h.2 before
  quiet h := by rw [check_disabled (Bool.eq_false_iff.mpr h), Check.skip_flaws]
  wanted _ h := ⟨enabled_of_check h, isComplete_of_describes (describes_of_check h)⟩
  describes _ h := describes_of_check h

end Field

namespace Join

def Describes (j : Join) (source : Option TableRef) (clause : JoinClause) : Prop :=
  clause.kind = j.kind ∧ clause.table.name.text = Text.trim j.table ∧
    clause.table.asName.map Ident.text = j.asName.bind Text.filled ∧
    (∃ primary, source = some primary ∧
      clause.left.text = primary.reference.text ++ "." ++ Text.trim j.leftColumn) ∧
    clause.right.text = clause.table.reference.text ++ "." ++ Text.trim j.rightColumn ∧
    clause.condition = j.condition.bind Text.filled

theorem check_disabled {j : Join} (h : j.enabled = false) (source : Option TableRef) :
    j.check source = .skip := by
  simp [check, h]

theorem checkNames_loud (j : Join) : j.checkNames.Loud :=
  (((checkIdent_loud _ _).both (checkAsName_loud _)).map _).both
    ((checkIdent_loud _ _).both (checkIdent_loud _ _))

theorem check_loud {j : Join} (he : j.enabled = true) (hc : j.isComplete = true)
    (primary : TableRef) : (j.check (some primary)).Loud := by
  unfold check
  rw [if_pos (by simp [he, hc])]
  apply j.checkNames_loud.bind
  intro names
  exact .pass _

theorem wanted_of_check {j : Join} {source : Option TableRef} {clause : JoinClause}
    (h : (j.check source).result = some clause) : j.enabled = true ∧ j.isComplete = true := by
  unfold check at h
  split_ifs at h with hw
  · exact Bool.and_eq_true_iff.mp hw
  · cases h

theorem describes_of_check {j : Join} {source : Option TableRef} {clause : JoinClause}
    (h : (j.check source).result = some clause) : j.Describes source clause := by
  unfold check at h
  split_ifs at h
  · rw [Check.bind_result] at h
    obtain ⟨⟨table, left, right⟩, hnames, h⟩ := Option.bind_eq_some_iff.mp h
    cases source with
    | none => cases h
    | some primary =>
      cases h
      simp only [checkNames, Check.both_result, Check.map_result, checkIdent_result,
        Option.bind_eq_some_iff, Option.map_eq_some_iff, Prod.mk.injEq] at hnames
      obtain ⟨t, ⟨⟨name, asName⟩, ⟨_, hname, _, hasName, rfl, rfl⟩, rfl⟩, _,
        ⟨l, hleft, r, hright, rfl⟩, rfl, rfl, rfl⟩ := hnames
      refine ⟨rfl, Ident.ofText?_eq_some.mp hname, checkAsName_result_eq_some hasName,
        ⟨primary, rfl, ?_⟩, ?_, rfl⟩
      · rw [← Ident.ofText?_eq_some.mp hleft]
        rfl
      · rw [← Ident.ofText?_eq_some.mp hright]
        rfl
  · cases h

theorem check_answers (j : Join) (source : Option TableRef) :
    (j.check source).Answers (j.enabled = true)
      (j.enabled = true ∧ j.isComplete = true ∧ source.isSome = true) (j.Describes source) where
  loud h := by
    obtain ⟨primary, rfl⟩ := Option.isSome_iff_exists.mp h.2.2
    exact check_loud h.1 h.2.1 primary
  quiet h := by rw [check_disabled (Bool.eq_false_iff.mpr h), Check.skip_flaws]
  wanted _ h := by
    obtain ⟨-, -, -, ⟨primary, rfl, -⟩, -⟩ := describes_of_check h
    exact ⟨(wanted_of_check h).1, (wanted_of_check h).2, rfl⟩
  describes _ h := describes_of_check h

end Join

namespace Filter

variable (declared : List String)

def isComplete (f : Filter) : Bool :=
  !Text.blank f.column && f.operator.isSome

def Describes (f : Filter) (comparison : Comparison) : Prop :=
  f.operator = some comparison.operator ∧ comparison.column.text = Text.trim f.column ∧
    (f.checkOperand declared comparison.operator).result = some comparison.operand

theorem checkValue_loud (source : ValueSource) (part : Part) (text : String) :
    (checkValue declared source part text).Loud := by
  unfold checkValue
  split
  · exact .report _ _ _
  · split
    · exact .pass _
    · split
      · exact .refuse _ _
      · split
        · exact .pass _
        · exact .report _ _ _
    · split
      · exact .refuse _ _
      · exact .pass _

theorem checkList_loud (f : Filter) : (f.checkList declared).Loud := by
  unfold checkList
  split
  · dsimp only
    split
    · exact .report _ _ _
    · exact .pass _
  · exact (checkValue_loud _ _ _ _).map _

theorem checkRange_loud (operator : Operator) (f : Filter) :
    (f.checkRange declared operator).Loud := by
  unfold checkRange
  apply (checkValue_loud _ _ _ _).bind
  intro low
  split
  · exact (checkValue_loud _ _ _ _).bind fun _ => .pure _
  · exact .report _ _ _

theorem checkComparison_loud (operator : Operator) (f : Filter) :
    (f.checkComparison declared operator).Loud := by
  apply (checkColumn_loud _ _).bind
  intro column
  apply Check.Loud.bind
  · unfold checkOperand
    split
    · exact .pass _
    · exact (checkValue_loud _ _ _ _).map _
    · exact (checkRange_loud _ _ _).map _
    · exact (checkList_loud _ _).map _
  · intro operand
    exact .pure _

theorem check_disabled {f : Filter} (h : f.enabled = false) : f.check declared = .skip := by
  unfold check
  split <;> simp [h]

theorem check_loud {f : Filter} (he : f.enabled = true) (hc : f.isComplete = true) :
    (f.check declared).Loud := by
  obtain ⟨hcolumn, ho⟩ := Bool.and_eq_true_iff.mp hc
  obtain ⟨operator, ho⟩ := Option.isSome_iff_exists.mp ho
  unfold check
  rw [ho]
  dsimp only
  rw [if_pos (by simp [he, hcolumn])]
  exact (checkComparison_loud declared operator f).map _

theorem wanted_of_check {f : Filter} {clause : Clause}
    (h : (f.check declared).result = some clause) : f.enabled = true ∧ f.isComplete = true := by
  unfold check at h
  split at h
  · cases h
  · next operator ho =>
    split_ifs at h with hw
    · simp only [isComplete, ho, Option.isSome_some, Bool.and_true]
      exact Bool.and_eq_true_iff.mp hw
    · cases h

theorem describes_of_checkComparison {f : Filter} {operator : Operator} {comparison : Comparison}
    (ho : f.operator = some operator)
    (h : (f.checkComparison declared operator).result = some comparison) :
    f.Describes declared comparison := by
  simp only [checkComparison, Check.bind_result, checkColumn_result, Check.pure_result,
    Option.bind_eq_some_iff, Option.some.injEq] at h
  obtain ⟨column, hcolumn, operand, hoperand, rfl⟩ := h
  exact ⟨ho, ColumnRef.ofText?_eq_some.mp hcolumn, hoperand⟩

theorem describes_of_check {f : Filter} {clause : Clause}
    (h : (f.check declared).result = some clause) : f.Describes declared clause.comparison := by
  unfold check at h
  split at h
  · cases h
  · next operator ho =>
    split_ifs at h
    · rw [Check.map_result] at h
      obtain ⟨comparison, hcomparison, rfl⟩ := Option.map_eq_some_iff.mp h
      exact describes_of_checkComparison declared ho hcomparison
    · cases h

theorem check_answers (f : Filter) :
    (f.check declared).Answers (f.enabled = true) (f.enabled = true ∧ f.isComplete = true)
      (fun clause => f.Describes declared clause.comparison) where
  loud h := check_loud declared h.1 h.2
  quiet h := by rw [check_disabled declared (Bool.eq_false_iff.mpr h), Check.skip_flaws]
  wanted _ h := wanted_of_check declared h
  describes _ h := describes_of_check declared h

end Filter

namespace SortKey

def isComplete (s : SortKey) : Bool :=
  !Text.blank s.column

def Describes (s : SortKey) (item : OrderItem) : Prop :=
  item.column.text = Text.trim s.column ∧ item.direction = s.direction

theorem check_disabled {s : SortKey} (h : s.enabled = false) : s.check = .skip := by
  simp [check, h]

theorem check_loud {s : SortKey} (he : s.enabled = true) (hc : s.isComplete = true) :
    s.check.Loud := by
  unfold check
  rw [if_pos (by rw [he, Bool.true_and]; exact hc)]
  exact (checkColumn_loud _ _).map _

theorem wanted_of_check {s : SortKey} {item : OrderItem} (h : s.check.result = some item) :
    s.enabled = true ∧ s.isComplete = true := by
  unfold check at h
  split_ifs at h with hw
  · exact Bool.and_eq_true_iff.mp hw
  · cases h

theorem describes_of_check {s : SortKey} {item : OrderItem} (h : s.check.result = some item) :
    s.Describes item := by
  unfold check at h
  split_ifs at h
  · rw [Check.map_result, checkColumn_result] at h
    obtain ⟨column, hcolumn, rfl⟩ := Option.map_eq_some_iff.mp h
    exact ⟨ColumnRef.ofText?_eq_some.mp hcolumn, rfl⟩
  · cases h

theorem check_answers (s : SortKey) :
    s.check.Answers (s.enabled = true) (s.enabled = true ∧ s.isComplete = true) s.Describes where
  loud h := check_loud h.1 h.2
  quiet h := by rw [check_disabled (Bool.eq_false_iff.mpr h), Check.skip_flaws]
  wanted _ h := wanted_of_check h
  describes _ h := describes_of_check h

end SortKey

namespace Param

def isComplete (p : Param) : Bool :=
  !Text.blank p.name

def Describes (p q : Param) : Prop :=
  q = { p with name := Text.trim p.name }

theorem check_disabled {p : Param} (h : p.enabled = false) : p.check = .skip := by
  simp [check, h]

theorem check_loud {p : Param} (he : p.enabled = true) (hc : p.isComplete = true) :
    p.check.Loud := by
  unfold check
  rw [if_pos (by rw [he, Bool.true_and]; exact hc)]
  exact (checkIdent_loud _ _).map _

theorem wanted_of_check {p q : Param} (h : p.check.result = some q) :
    p.enabled = true ∧ p.isComplete = true := by
  unfold check at h
  split_ifs at h with hw
  · exact Bool.and_eq_true_iff.mp hw
  · cases h

theorem describes_of_check {p q : Param} (h : p.check.result = some q) : p.Describes q := by
  unfold check at h
  split_ifs at h
  · rw [Check.map_result, checkIdent_result] at h
    obtain ⟨name, hname, rfl⟩ := Option.map_eq_some_iff.mp h
    rw [Describes, Ident.ofText?_eq_some.mp hname]
  · cases h

theorem check_answers (p : Param) :
    p.check.Answers (p.enabled = true) (p.enabled = true ∧ p.isComplete = true) p.Describes where
  loud h := check_loud h.1 h.2
  quiet h := by rw [check_disabled (Bool.eq_false_iff.mpr h), Check.skip_flaws]
  wanted _ h := wanted_of_check h
  describes _ h := describes_of_check h

end Param

end Config

end EndpointPreview
