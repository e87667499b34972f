import EndpointPreview.Proofs.CheckLaws
import EndpointPreview.Proofs.LiteralLists
/-!
The values that the check of a filter lets through. A literal is trimmed text, a parameter has a
safe name, and the operand has the shape that its operator asks for.
-/

namespace EndpointPreview

open Text

def Value.isLiteral : Value → Bool
  | .literal _ => true
  | _ => false

def Value.Sound : Value → Prop
  | .literal text => text ≠ "" ∧ Text.trim text = text
  | .param name => isIdentifier name = true
  | _ => True

theorem filled_of_filled {s text : String} (h : filled s = some text) : filled text = some text := by
  obtain ⟨hblank, rfl⟩ := filled_eq_some.mp h
  refine filled_eq_some.mpr ⟨?_, trim_trim s⟩
  rw [← Bool.not_eq_true, blank_iff, trim_trim, ← blank_iff, hblank]
  exact Bool.false_ne_true

theorem bind_filled_eq_none {text : Option String} (h : ∀ s ∈ text, blank s = true) :
    text.bind filled = none := by
  cases text with
  | none => rfl
  | some s => exact filled_eq_none.mpr (h s rfl)

section

variable {declared : List String} {source : ValueSource} {part : Part} {text : String} {v : Value}

theorem checkValue_sound (h : (checkValue declared source part text).result = some v) : v.Sound := by
  unfold checkValue at h
  split at h
  · cases h
    exact trivial
  · next found hfound =>
    obtain ⟨hblank, rfl⟩ := filled_eq_some.mp hfound
    split at h
    · cases h
      refine ⟨?_, trim_trim text⟩
      intro he
      rw [← blank_iff, hblank] at he
      cases he
    · split at h
      · cases h
      · next name hname =>
        have hv : v = .param name := by
          split at h <;> cases h <;> rfl
        rw [hv]
        exact parameter?_isIdentifier hname
    · split at h
      · cases h
      · cases h
        exact trivial

theorem checkValue_not_literal (hs : source ≠ .static)
    (h : (checkValue declared source part text).result = some v) : v.isLiteral = false := by
  unfold checkValue at h
  split at h
  · cases h
    rfl
  · split at h
    · exact absurd rfl hs
    · split at h
      · cases h
      · split at h <;> cases h <;> rfl
    · split at h
      · cases h
      · cases h
        rfl

theorem checkValue_ne_missing {s : String} (hs : filled s = some text)
    (h : (checkValue declared source part text).result = some v) : v ≠ .missing := by
  rintro rfl
  unfold checkValue at h
  rw [filled_of_filled hs] at h
  dsimp only at h
  split at h
  · cases h
  · split at h
    · cases h
    · split at h <;> cases h
  · split at h <;> cases h

end

def Operand.arity : Operand → Arity
  | .none => .none
  | .single _ => .single
  | .range _ _ => .range
  | .list _ => .list

structure Operand.Fits (operator : Operator) (operand : Operand) : Prop where
  arity : operand.arity = operator.arity
  values : ∀ v ∈ operand.values, v.Sound
  uniform : ∀ vs, operand = .list vs →
    (∀ v ∈ vs, v.isLiteral = true) ∨ ∃ v, vs = [v] ∧ v.isLiteral = false
  bounded : ∀ low high, operand = .range low (some high) → high ≠ .missing

namespace Config.Filter

variable {declared : List String} {f : Filter} {operator : Operator} {operand : Operand}

inductive HasOperand (declared : List String) (f : Filter) (operator : Operator) : Operand → Prop
  | none (ha : operator.arity = .none) : HasOperand declared f operator .none
  | single {v : Value} (ha : operator.arity = .single)
      (hv : (checkValue declared f.source .value f.value).result = some v) :
      HasOperand declared f operator (.single v)
  | range {low : Value} {high : Option Value} (ha : operator.arity = .range)
      (hlow : (checkValue declared f.source .value f.value).result = some low)
      (hhigh : ∀ v, high = some v → ∃ text, f.secondValue.bind Text.filled = some text ∧
        (checkValue declared f.source .secondValue text).result = some v) :
      HasOperand declared f operator (.range low high)
  | literals (ha : operator.arity = .list) (hs : f.source = .static) :
      HasOperand declared f operator (.list ((ValueText.literals f.value).map .literal))
  | reference {v : Value} (ha : operator.arity = .list) (hs : f.source ≠ .static)
      (hv : (checkValue declared f.source .value f.value).result = some v) :
      HasOperand declared f operator (.list [v])

theorem hasOperand_of_checkRange {low : Value} {high : Option Value}
    (ha : operator.arity = .range)
    (h : (f.checkRange declared operator).result = some (low, high)) :
    f.HasOperand declared operator (.range low high) := by
  unfold checkRange at h
  rw [Check.bind_result] at h
  obtain ⟨first, hfirst, h⟩ := Option.bind_eq_some_iff.mp h
  split at h
  · next text htext =>
    rw [Check.bind_result] at h
    obtain ⟨second, hsecond, h⟩ := Option.bind_eq_some_iff.mp h
    cases h
    refine .range ha hfirst ?_
    rintro v ⟨⟩
    exact ⟨text, htext, hsecond⟩
  · cases h
    exact .range ha hfirst (by simp)

theorem hasOperand_of_checkList {vs : List Value} (ha : operator.arity = .list)
    (h : (f.checkList declared).result = some vs) : f.HasOperand declared operator (.list vs) := by
  unfold checkList at h
  split at h
  · next hs =>
    have hvs : vs = (ValueText.literals f.value).map .literal := by
      dsimp only at h
      split at h
      · next hnil =>
        -- A list without values is reported, and is the operand all the same.
        cases h
        rw [hnil, List.map_nil]
      · cases h
        rfl
    rw [hvs]
    exact .literals ha hs
  · next hs =>
    obtain ⟨v, hv, rfl⟩ := Option.map_eq_some_iff.mp h
    exact .reference ha hs hv

theorem hasOperand_of_checkOperand
    (h : (f.checkOperand declared operator).result = some operand) :
    f.HasOperand declared operator operand := by
  unfold checkOperand at h
  split at h
  · next ha =>
    cases h
    exact .none ha
  · next ha =>
    obtain ⟨v, hv, rfl⟩ := Option.map_eq_some_iff.mp h
    exact .single ha hv
  · next ha =>
    obtain ⟨⟨low, high⟩, hrange, rfl⟩ := Option.map_eq_some_iff.mp h
    exact hasOperand_of_checkRange ha hrange
  · next ha =>
    obtain ⟨vs, hvs, rfl⟩ := Option.map_eq_some_iff.mp h
    exact hasOperand_of_checkList ha hvs

theorem HasOperand.forall_values {P : Value → Prop} (h : f.HasOperand declared operator operand)
    (hvalue : ∀ part text v, (checkValue declared f.source part text).result = some v → P v)
    (hliteral : f.source = .static → ∀ text ∈ ValueText.literals f.value, P (.literal text)) :
    ∀ v ∈ operand.values, P v := by
  intro v hv
  cases h with
  | none ha => cases hv
  | single ha hsingle =>
    rw [List.mem_singleton.mp hv]
    exact hvalue _ _ _ hsingle
  | range ha hlow hhigh =>
    rcases List.mem_cons.mp hv with rfl | hv
    · exact hvalue _ _ _ hlow
    · obtain ⟨text, -, hsecond⟩ := hhigh v (Option.mem_toList.mp hv)
      exact hvalue _ _ _ hsecond
  | literals ha hs =>
    obtain ⟨text, htext, rfl⟩ := List.mem_map.mp hv
    exact hliteral hs text htext
  | reference ha hs hreference =>
    rw [List.mem_singleton.mp hv]
    exact hvalue _ _ _ hreference

theorem HasOperand.fits (h : f.HasOperand declared operator operand) :
    operand.Fits operator where
  arity := by
    cases h with
    | none ha => exact ha.symm
    | single ha _ => exact ha.symm
    | range ha _ _ => exact ha.symm
    | literals ha _ => exact ha.symm
    | reference ha _ _ => exact ha.symm
  values := by
    apply h.forall_values (P := Value.Sound)
    · intro part text v hv
      exact checkValue_sound hv
    · intro _ text htext
      exact ValueText.literal_trimmed htext
  uniform := by
    rintro vs rfl
    cases h with
    | literals ha hs =>
      left
      intro v hv
      obtain ⟨text, -, rfl⟩ := List.mem_map.mp hv
      rfl
    | @reference v ha hs hv =>
      right
      exact ⟨v, rfl, checkValue_not_literal hs hv⟩
  bounded := by
    rintro low high rfl
    cases h with
    | range ha hlow hhigh =>
      obtain ⟨text, htext, hv⟩ := hhigh high rfl
      obtain ⟨s, -, hs⟩ := Option.bind_eq_some_iff.mp htext
      exact checkValue_ne_missing hs hv

theorem HasOperand.not_literal (h : f.HasOperand declared operator operand)
    (hs : f.source = .static → operator.arity = .none) :
    ∀ v ∈ operand.values, v.isLiteral = false := by
  by_cases hstatic : f.source = .static
  · have harity : operand.arity = .none := h.fits.arity.trans (hs hstatic)
    cases operand with
    | none => exact List.forall_mem_nil _
    | _ => cases harity
  · apply h.forall_values (P := fun v => v.isLiteral = false)
    · intro part text v hv
      exact checkValue_not_literal hstatic hv
    · intro hs'
      exact absurd hs' hstatic

end Config.Filter

end EndpointPreview
