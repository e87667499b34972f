import Mathlib.Data.List.Nodup
import EndpointPreview.Preview
import EndpointPreview.Proofs.SurveyLaws
/-!
The grouping of a query beside its selection. The columns are collected along the selection, and what
has been collected so far are the plain columns of the part that has been read, each once, in the
order in which they first stand there.
-/

namespace EndpointPreview

def firstPlace (projection : List Projection) (column : ColumnRef) : Nat :=
  projection.findIdx fun p => p.expr = .column column

def collect (columns : List ColumnRef) (p : Projection) : List ColumnRef :=
  match p.expr with
  | .column c => if c ∈ columns then columns else columns ++ [c]
  | _ => columns

theorem grouping_eq (projection : List Projection) :
    grouping projection =
      if projection.any fun p => p.expr.isAggregate then projection.foldl collect [] else [] := by
  rw [grouping, List.foldl_filterMap]
  congr
  funext columns p
  rw [collect]
  cases p.expr <;> rfl

structure Collected (read : List Projection) (columns : List ColumnRef) : Prop where
  mem : ∀ column, column ∈ columns ↔ ∃ p ∈ read, p.expr = .column column
  ordered : columns.Pairwise fun a b => firstPlace read a < firstPlace read b

namespace Collected

variable {read : List Projection} {columns : List ColumnRef} {p : Projection} {c : ColumnRef}

theorem nil : Collected [] [] where
  mem column := by simp
  ordered := .nil

theorem firstPlace_lt (h : Collected read columns) (hc : c ∈ columns) :
    firstPlace read c < read.length := by
  obtain ⟨p, hp, he⟩ := (h.mem c).mp hc
  apply List.findIdx_lt_length_of_exists
  exact ⟨p, hp, by simpa using he⟩

theorem firstPlace_append (h : Collected read columns) (hc : c ∈ columns) (p : Projection) :
    firstPlace (read ++ [p]) c = firstPlace read c := by
  have hlt := h.firstPlace_lt hc
  rw [firstPlace, List.findIdx_append]
  exact if_pos hlt

theorem ordered_append (h : Collected read columns) (p : Projection) :
    columns.Pairwise fun a b => firstPlace (read ++ [p]) a < firstPlace (read ++ [p]) b := by
  apply h.ordered.imp_of_mem
  intro a b ha hb hab
  rwa [h.firstPlace_append ha, h.firstPlace_append hb]

theorem seen (h : Collected read columns) (hp : ∀ column, p.expr = .column column → column ∈ columns) :
    Collected (read ++ [p]) columns where
  mem column := by
    rw [h.mem]
    constructor
    · rintro ⟨q, hq, he⟩
      exact ⟨q, List.mem_append_left _ hq, he⟩
    · rintro ⟨q, hq, he⟩
      rcases List.mem_append.mp hq with hq | hq
      · exact ⟨q, hq, he⟩
      · rw [List.mem_singleton.mp hq] at he
        exact (h.mem column).mp (hp column he)
  ordered := h.ordered_append p

theorem unseen (h : Collected read columns) (hp : p.expr = .column c) (hc : c ∉ columns) :
    Collected (read ++ [p]) (columns ++ [c]) where
  mem column := by
    rw [List.mem_append, h.mem, List.mem_singleton]
    constructor
    · rintro (⟨q, hq, he⟩ | rfl)
      · exact ⟨q, List.mem_append_left _ hq, he⟩
      · exact ⟨p, by simp, hp⟩
    · rintro ⟨q, hq, he⟩
      rcases List.mem_append.mp hq with hq | hq
      · exact .inl ⟨q, hq, he⟩
      · rw [List.mem_singleton.mp hq, hp] at he
        cases he
        exact .inr rfl
  ordered := by
    -- The new column stands behind all that has been read, and the others stand in it.
    have hplace : read.length ≤ firstPlace (read ++ [p]) c := by
      have hnone : ¬firstPlace read c < read.length := by
        intro hlt
        obtain ⟨q, hq, he⟩ := List.findIdx_lt_length.mp hlt
        exact hc ((h.mem c).mpr ⟨q, hq, by simpa using he⟩)
      rw [firstPlace, List.findIdx_append]
      exact (if_neg hnone).symm ▸ Nat.le_add_left _ _
    rw [List.pairwise_append]
    refine ⟨h.ordered_append p, List.pairwise_singleton _ _, ?_⟩
    intro a ha b hb
    rw [List.mem_singleton.mp hb, h.firstPlace_append ha]
    exact Nat.lt_of_lt_of_le (h.firstPlace_lt ha) hplace

theorem collect (h : Collected read columns) (p : Projection) :
    Collected (read ++ [p]) (collect columns p) := by
  unfold EndpointPreview.collect
  split
  · next c hp =>
    by_cases hc : c ∈ columns
    · rw [if_pos hc]
      apply h.seen
      intro column he
      rw [hp] at he
      cases he
      exact hc
    · rw [if_neg hc]
      exact h.unseen hp hc
  · next hp => exact h.seen fun column he => absurd he (hp column)

theorem foldl (h : Collected read columns) (rest : List Projection) :
    Collected (read ++ rest) (rest.foldl EndpointPreview.collect columns) := by
  induction rest generalizing read columns with
  | nil => simpa using h
  | cons p rest ih => simpa using ih (h.collect p)

theorem nodup (h : Collected read columns) : columns.Nodup := by
  apply h.ordered.imp
  rintro a b hlt rfl
  exact Nat.lt_irrefl _ hlt

end Collected

theorem grouping_collected {projection : List Projection}
    (h : ∃ p ∈ projection, p.expr.isAggregate = true) :
    Collected projection (grouping projection) := by
  rw [grouping_eq, if_pos (List.any_eq_true.mpr h)]
  exact Collected.nil.foldl projection

theorem grouping_eq_nil {projection : List Projection}
    (h : ∀ p ∈ projection, p.expr.isAggregate = false) : grouping projection = [] := by
  rw [grouping_eq, if_neg]
  simpa using h

namespace Query

def IsMixed (q : Query) : Prop :=
  (∃ p ∈ q.projection, p.expr.isAggregate = true) ∧
    ∃ p ∈ q.projection, ∃ column, p.expr = .column column

def linesBeforeGrouping (q : Query) : List String :=
  q.firstLine :: q.joins.map JoinClause.sql ++ q.filter.clause.toList

def linesAfterGrouping (q : Query) : List String :=
  (orderBySql q.orderBy).toList ++ (q.limit.map Limit.sql).toList

theorem sqlLines_eq (q : Query) :
    q.sqlLines = q.linesBeforeGrouping ++ (groupBySql q.groupBy).toList ++ q.linesAfterGrouping := by
  simp only [sqlLines, linesBeforeGrouping, linesAfterGrouping, List.append_assoc]

theorem groupBy_ne_nil_iff {q : Query} (h : q.groupBy = grouping q.projection) :
    q.groupBy ≠ [] ↔ q.IsMixed := by
  constructor
  · intro hne
    have haggregate : ∃ p ∈ q.projection, p.expr.isAggregate = true := by
      by_contra hnone
      apply hne
      rw [h]
      apply grouping_eq_nil
      simpa using hnone
    refine ⟨haggregate, ?_⟩
    obtain ⟨column, hcolumn⟩ := List.exists_mem_of_ne_nil _ hne
    rw [h] at hcolumn
    obtain ⟨p, hp, he⟩ := ((grouping_collected haggregate).mem column).mp hcolumn
    exact ⟨p, hp, column, he⟩
  · rintro ⟨haggregate, p, hp, column, he⟩
    rw [h]
    exact List.ne_nil_of_mem (((grouping_collected haggregate).mem column).mpr ⟨p, hp, he⟩)

end Query

theorem grouping_follows_selection (c : Config) (host : String) :
    let q := c.resolve.endpoint.query
    let line := "GROUP BY " ++ ", ".intercalate (q.groupBy.map ColumnRef.text)
    ((∀ p ∈ q.projection, p.expr.isAggregate = false) → q.groupBy = []) ∧
    ((∃ p ∈ q.projection, p.expr.isAggregate = true) →
      (∀ column, column ∈ q.groupBy ↔ ∃ p ∈ q.projection, p.expr = .column column) ∧
      q.groupBy.Nodup ∧
      q.groupBy.Pairwise fun a b => firstPlace q.projection a < firstPlace q.projection b) ∧
    (q.IsMixed →
      (c.preview host).query =
        "\n".intercalate (q.linesBeforeGrouping ++ line :: q.linesAfterGrouping) ∧
      ∀ p ∈ q.projection, ∀ column, p.expr = .column column → q.groupBy.count column = 1) ∧
    (¬q.IsMixed →
      (c.preview host).query = "\n".intercalate (q.linesBeforeGrouping ++ q.linesAfterGrouping)) := by
  intro q line
  have hgroup : q.groupBy = grouping q.projection := rfl
  have hquery : (c.preview host).query = "\n".intercalate q.sqlLines := rfl
  have hmixed := Query.groupBy_ne_nil_iff hgroup
  refine ⟨?_, ?_, ?_, ?_⟩
  · intro h
    rw [hgroup, grouping_eq_nil h]
  · intro h
    have hcollected : Collected q.projection q.groupBy := hgroup ▸ grouping_collected h
    exact ⟨hcollected.mem, hcollected.nodup, hcollected.ordered⟩
  · intro h
    have hcollected : Collected q.projection q.groupBy := hgroup ▸ grouping_collected h.1
    constructor
    · rw [hquery, q.sqlLines_eq, groupBySql, if_neg (hmixed.mpr h), Option.toList_some,
        List.append_assoc, List.singleton_append]
    · intro p hp column he
      apply List.count_eq_one_of_mem hcollected.nodup
      exact (hcollected.mem column).mpr ⟨p, hp, he⟩
  · intro h
    have hnil : q.groupBy = [] := not_not.mp (mt hmixed.mp h)
    rw [hquery, q.sqlLines_eq, groupBySql, if_pos hnil, Option.toList_none, List.append_nil]

example :
    (Config.resolve {
      fields := [
        { column := "u.id" },
        { column := "name" },
        { column := "u.id", asName := some "user_id" },
        { expression := some "1" },
        { aggregation := .count }] }).endpoint.query.groupBy.map ColumnRef.text = ["u.id", "name"] := by
  decide

end EndpointPreview
