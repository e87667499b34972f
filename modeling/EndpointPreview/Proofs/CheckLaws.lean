import EndpointPreview.Proofs.TextLaws
import EndpointPreview.Resolution.Basic
/-!
Laws of checks: what the combinators yield, and that each of them that yields nothing has said
why.
-/

namespace EndpointPreview

namespace Check

variable {α β : Type}

@[simp] theorem pass_result (a : α) : (pass a).result = some a := rfl

@[simp] theorem skip_result : (skip : Check α).result = none := rfl

@[simp] theorem skip_flaws : (skip : Check α).flaws = [] := rfl

@[simp] theorem refuse_result (part : Part) (problem : Problem) :
    (refuse part problem : Check α).result = none := rfl

@[simp] theorem report_result (part : Part) (problem : Problem) (a : α) :
    (report part problem a).result = some a := rfl

@[simp] theorem pure_result (a : α) : (pure a : Check α).result = some a := rfl

@[simp] theorem map_result (f : α → β) (c : Check α) : (c.map f).result = c.result.map f := rfl

@[simp] theorem map_flaws (f : α → β) (c : Check α) : (c.map f).flaws = c.flaws := rfl

@[simp] theorem bind_result (c : Check α) (next : α → Check β) :
    (c >>= next).result = c.result.bind fun a => (next a).result := by
  change (c.bind next).result = _
  unfold bind
  cases c.result <;> rfl

theorem bind_flaws (c : Check α) (next : α → Check β) :
    (c >>= next).flaws = c.flaws ++ (c.result.map fun a => (next a).flaws).getD [] := by
  change (c.bind next).flaws = _
  unfold bind
  cases c.result with
  | none => exact (List.append_nil _).symm
  | some a => rfl

@[simp] theorem both_result (c : Check α) (d : Check β) :
    (c.both d).result = c.result.bind fun a => d.result.map fun b => (a, b) := rfl

/-- Nothing is left out without a word. -/
def Loud (c : Check α) : Prop :=
  c.result = none → c.flaws ≠ []

theorem Loud.pass (a : α) : (Check.pass a).Loud :=
  fun h => by cases h

theorem Loud.pure (a : α) : (Pure.pure a : Check α).Loud :=
  Loud.pass a

theorem Loud.refuse (part : Part) (problem : Problem) : (Check.refuse part problem : Check α).Loud :=
  fun _ => List.cons_ne_nil _ _

theorem Loud.report (part : Part) (problem : Problem) (a : α) :
    (Check.report part problem a).Loud :=
  fun h => by cases h

theorem Loud.map {c : Check α} (h : c.Loud) (f : α → β) : (c.map f).Loud :=
  fun hn => h (Option.map_eq_none_iff.mp hn)

theorem Loud.bind {c : Check α} {next : α → Check β} (h : c.Loud) (hnext : ∀ a, (next a).Loud) :
    (c >>= next).Loud := by
  intro hn
  change (c.bind next).result = none at hn
  change (c.bind next).flaws ≠ []
  unfold Check.bind at hn ⊢
  cases hc : c.result with
  | none => exact h hc
  | some a =>
    rw [hc] at hn
    exact fun he => hnext a hn (List.append_eq_nil_iff.mp he).2

theorem Loud.both {c : Check α} {d : Check β} (hc : c.Loud) (hd : d.Loud) : (c.both d).Loud := by
  intro hn he
  obtain ⟨hec, hed⟩ := List.append_eq_nil_iff.mp he
  obtain ⟨a, ha⟩ := Option.ne_none_iff_exists'.mp (mt hc (not_not.mpr hec))
  obtain ⟨b, hb⟩ := Option.ne_none_iff_exists'.mp (mt hd (not_not.mpr hed))
  rw [both_result, ha, hb] at hn
  cases hn

end Check

theorem Ident.ofText?_eq_some {s : String} {name : Ident} :
    Ident.ofText? s = some name ↔ name.text = Text.trim s := by
  unfold Ident.ofText?
  constructor
  · intro h
    split_ifs at h
    cases h
    rfl
  · rintro h
    have hs : isIdentifier (Text.trim s) = true := h ▸ name.safe
    rw [dif_pos hs, Option.some_inj]
    cases name
    simp_all

theorem ColumnRef.ofText?_eq_some {s : String} {column : ColumnRef} :
    ColumnRef.ofText? s = some column ↔ column.text = Text.trim s := by
  unfold ColumnRef.ofText?
  constructor
  · intro h
    split_ifs at h
    cases h
    rfl
  · rintro h
    have hs : isColumnPath (Text.trim s) = true := h ▸ column.safe
    rw [dif_pos hs, Option.some_inj]
    cases column
    simp_all

@[simp] theorem checkIdent_result (part : Part) (text : String) :
    (checkIdent part text).result = Ident.ofText? text := by
  unfold checkIdent
  cases Ident.ofText? text <;> rfl

@[simp] theorem checkColumn_result (part : Part) (text : String) :
    (checkColumn part text).result = ColumnRef.ofText? text := by
  unfold checkColumn
  cases ColumnRef.ofText? text <;> rfl

theorem checkIdent_loud (part : Part) (text : String) : (checkIdent part text).Loud := by
  unfold checkIdent
  split
  · exact .pass _
  · exact .refuse _ _

theorem checkColumn_loud (part : Part) (text : String) : (checkColumn part text).Loud := by
  unfold checkColumn
  split
  · exact .pass _
  · exact .refuse _ _

theorem checkAsName_loud (text : Option String) : (checkAsName text).Loud := by
  unfold checkAsName
  split
  · exact (checkIdent_loud _ _).map _
  · exact .pass _

theorem filled_trim {text : Option String} {name : String} (h : text.bind Text.filled = some name) :
    Text.trim name = name := by
  obtain ⟨s, -, hs⟩ := Option.bind_eq_some_iff.mp h
  rw [← (filled_eq_some.mp hs).2, trim_trim]

theorem checkAsName_result_eq_some {text : Option String} {name : Option Ident}
    (h : (checkAsName text).result = some name) :
    name.map Ident.text = text.bind Text.filled := by
  unfold checkAsName at h
  split at h
  · next found hfound =>
    rw [Check.map_result, checkIdent_result] at h
    obtain ⟨ident, hident, rfl⟩ := Option.map_eq_some_iff.mp h
    rw [hfound, Option.map_some, Ident.ofText?_eq_some.mp hident, filled_trim hfound]
  · next hnone =>
    cases h
    rw [hnone, Option.map_none]

end EndpointPreview
