import Mathlib.Data.List.SplitBy
import EndpointPreview.Proofs.SurveyLaws
import EndpointPreview.Query.Sql
/-!
The chain of filters by its runs. The builder reads the filters once from left to right; its chain
is the one that comes of cutting the surviving filters into runs first and writing a link for each
run afterwards.
-/

namespace EndpointPreview

structure Survivor where
  filter : Config.Filter
  comparison : Comparison

def Config.Filter.survivor? (declared : List String) (f : Config.Filter) : Option Survivor :=
  if f.enabled = true ∧ Text.blank f.column = false then
    f.operator.bind fun operator =>
      (f.checkComparison declared operator).result.map (Survivor.mk f)
  else none

def Config.survivors (c : Config) : List Survivor :=
  c.filters.filterMap (Config.Filter.survivor? c.declaredParams)

namespace Survivor

def startsRun (before s : Survivor) : Bool :=
  s.filter.groupName == none || s.filter.groupName != before.filter.groupName ||
    s.filter.startsGroup

def runs (survivors : List Survivor) : List (List Survivor) :=
  survivors.splitBy fun before s => !before.startsRun s

def link (connective : Connective) (s : Survivor) : Link :=
  .mk connective (.compare s.comparison)

/-- The connective of the first filter joins the whole run to the link before it. -/
def runLink : List Survivor → Option Link
  | [] => none
  | [only] => some (only.link only.filter.connective)
  | first :: rest =>
    some (.mk first.filter.connective
      (.group (first.link .and :: rest.map fun s => s.link s.filter.connective)))

def clause (s : Survivor) : Clause :=
  ⟨s.comparison, s.filter.connective, s.filter.groupName, s.filter.startsGroup⟩

theorem runs_concat_start {xs : List Survivor} {s : Survivor}
    (h : ∀ last ∈ xs.getLast?, last.startsRun s = true) : runs (xs ++ [s]) = runs xs ++ [[s]] := by
  apply List.splitBy_append_cons
  intro last hlast
  rw [h last hlast, Bool.not_true]

theorem runs_concat_continue {xs run : List Survivor} {earlier : List (List Survivor)}
    {last s : Survivor} (hruns : runs xs = earlier ++ [run ++ [last]])
    (h : last.startsRun s = false) :
    runs (xs ++ [s]) = earlier ++ [run ++ [last] ++ [s]] := by
  obtain ⟨hflat, hnil, hinside, hbetween⟩ := List.splitBy_eq_iff.mp hruns
  apply List.splitBy_eq_iff.mpr
  refine ⟨by simp [hflat], ?_, ?_, ?_⟩
  · simpa using hnil
  · intro r hr
    rcases List.mem_append.mp hr with hr | hr
    · exact hinside r (List.mem_append_left _ hr)
    · rw [List.mem_singleton.mp hr]
      have hlast := hinside _ (List.mem_append_right earlier List.mem_cons_self)
      rw [List.isChain_append]
      refine ⟨hlast, List.isChain_singleton _, ?_⟩
      simp [h]
  · rw [List.isChain_append] at hbetween ⊢
    refine ⟨hbetween.1, List.isChain_singleton _, ?_⟩
    intro r hr t ht
    obtain ⟨hne, _, hstart⟩ := hbetween.2.2 r hr _ rfl
    cases ht
    refine ⟨hne, by simp, ?_⟩
    rwa [List.head_append_of_ne_nil]

def openGroup (name : String) (first : Survivor) (rest : List Survivor) : OpenGroup :=
  ⟨name, first.filter.connective,
    first.link .and :: rest.map fun s => s.link s.filter.connective⟩

theorem openGroup_link (name : String) (first : Survivor) (rest : List Survivor) :
    some (openGroup name first rest).link = runLink (first :: rest) := by
  cases rest <;> rfl

/-- How a builder stands after some survivors: every run has its link, but for an open last one. -/
inductive Built : List Survivor → ChainBuilder → Prop
  | closed {xs : List Survivor} {links : Chain}
      (hlinks : links.map some = (runs xs).map runLink)
      (hlast : ∀ last ∈ xs.getLast?, last.filter.groupName = none) :
      Built xs ⟨links, none⟩
  | opened {xs rest : List Survivor} {first : Survivor} {links : Chain}
      {earlier : List (List Survivor)} {name : String}
      (hlinks : links.map some = earlier.map runLink)
      (hruns : runs xs = earlier ++ [first :: rest])
      (hlast : ∀ last ∈ xs.getLast?, last.filter.groupName = some name) :
      Built xs ⟨links, some (openGroup name first rest)⟩

theorem Built.close {xs : List Survivor} {b : ChainBuilder} (h : Built xs b) :
    b.close.map some = (runs xs).map runLink := by
  cases h with
  | closed hlinks hlast => simpa [ChainBuilder.close] using hlinks
  | @opened rest first links earlier name hlinks hruns hlast =>
    rw [hruns, List.map_append, ← hlinks, List.map_cons, ← openGroup_link name]
    simp [ChainBuilder.close]

theorem Built.start {xs : List Survivor} {s : Survivor} {links : Chain}
    (hlinks : links.map some = (runs xs).map runLink)
    (hstart : ∀ last ∈ xs.getLast?, last.startsRun s = true) :
    Built (xs ++ [s]) (match s.filter.groupName with
      | some name => ⟨links, some (openGroup name s [])⟩
      | none => ⟨links ++ [s.link s.filter.connective], none⟩) := by
  have hruns := runs_concat_start hstart
  cases hgroup : s.filter.groupName with
  | none =>
    refine .closed ?_ (by simpa using hgroup)
    rw [hruns, List.map_append, List.map_append, hlinks]
    rfl
  | some name => exact .opened hlinks hruns (by simpa using hgroup)

theorem Built.extend {xs rest : List Survivor} {first s : Survivor} {links : Chain}
    {earlier : List (List Survivor)} {name : String}
    (hlinks : links.map some = earlier.map runLink)
    (hruns : runs xs = earlier ++ [first :: rest])
    (hlast : ∀ last ∈ xs.getLast?, last.filter.groupName = some name)
    (hgroup : s.filter.groupName = some name) (hstarts : s.filter.startsGroup = false) :
    Built (xs ++ [s]) ⟨links, some { openGroup name first rest with
      links := (openGroup name first rest).links ++ [s.link s.filter.connective] }⟩ := by
  obtain ⟨run, last, hrun⟩ : ∃ run last, first :: rest = run ++ [last] :=
    ⟨_, _, (List.dropLast_append_getLast (List.cons_ne_nil first rest)).symm⟩
  -- The group is the last run, so what it ends with is the survivor read last.
  have hxs : last ∈ xs.getLast? := by
    rw [← List.flatten_splitBy (fun before s => !before.startsRun s) xs]
    change last ∈ (runs xs).flatten.getLast?
    rw [hruns, hrun]
    simp
  have hcontinues : last.startsRun s = false := by
    simp [startsRun, hgroup, hstarts, hlast last hxs]
  rw [hrun] at hruns
  have hnext := runs_concat_continue hruns hcontinues
  rw [← hrun, List.cons_append] at hnext
  have hopen : { openGroup name first rest with
      links := (openGroup name first rest).links ++ [s.link s.filter.connective] } =
      openGroup name first (rest ++ [s]) := by
    simp [openGroup]
  rw [hopen]
  exact .opened hlinks hnext (by simpa using hgroup)

theorem Built.add {xs : List Survivor} {b : ChainBuilder} (h : Built xs b) (s : Survivor) :
    Built (xs ++ [s]) (b.add s.clause) := by
  have hclose := h.close
  unfold ChainBuilder.add
  cases h with
  | closed hlinks hlast =>
    apply Built.start hclose
    intro last hmem
    cases hgroup : s.filter.groupName <;> simp [startsRun, hgroup, hlast last hmem]
  | @opened rest first links earlier name hlinks hruns hlast =>
    by_cases hjoin : s.filter.startsGroup = false ∧ s.filter.groupName = some name
    · have hfor : ChainBuilder.groupFor? ⟨links, some (openGroup name first rest)⟩ s.clause =
          some (openGroup name first rest) := by
        simp [ChainBuilder.groupFor?, clause, openGroup, hjoin.1, hjoin.2]
      rw [hfor]
      exact Built.extend hlinks hruns hlast hjoin.2 hjoin.1
    · have hfor : ChainBuilder.groupFor? ⟨links, some (openGroup name first rest)⟩ s.clause =
          none := by
        simp only [ChainBuilder.groupFor?, clause, openGroup, Option.filter_some]
        simpa using hjoin
      rw [hfor]
      apply Built.start hclose
      intro last hmem
      rcases not_and_or.mp hjoin with h | h
      · rw [Bool.not_eq_false] at h
        simp [startsRun, h]
      · simp [startsRun, hlast last hmem, h]

theorem built_foldl (xs ys : List Survivor) {b : ChainBuilder} (h : Built xs b) :
    Built (xs ++ ys) ((ys.map clause).foldl ChainBuilder.add b) := by
  -- What has been read is a prefix that grows by one survivor in each step.
  induction ys generalizing xs b with
  | nil => simpa using h
  | cons s ys ih =>
    rw [List.map_cons, List.foldl_cons, List.append_cons]
    exact ih (xs ++ [s]) (h.add s)

theorem ofClauses_runs (xs : List Survivor) :
    (Chain.ofClauses (xs.map clause)).map some = (runs xs).map runLink :=
  (built_foldl [] xs (.closed rfl (by simp))).close

end Survivor

theorem Config.Filter.check_result (declared : List String) (f : Config.Filter) :
    (f.check declared).result = (f.survivor? declared).map Survivor.clause := by
  unfold check survivor?
  cases f.operator with
  | none => simp
  | some operator =>
    by_cases h : f.enabled = true ∧ Text.blank f.column = false
    · rw [if_pos h]
      dsimp only
      rw [if_pos (by simp [h.1, h.2]), Check.map_result, Option.bind_some, Option.map_map]
      rfl
    · rw [if_neg h]
      dsimp only
      rw [if_neg (by simpa using h), Check.skip_result, Option.map_none]

theorem Config.filterSurvey_results (c : Config) :
    c.filterSurvey.results = c.survivors.map Survivor.clause := by
  have hcheck : Check.result ∘ Filter.check c.declaredParams =
      fun f => (f.survivor? c.declaredParams).map Survivor.clause := by
    funext f
    exact f.check_result c.declaredParams
  rw [filterSurvey, Survey.each_eq, survivors, List.filterMap_map, List.map_filterMap, hcheck]

theorem Config.describes_of_survivor {c : Config} {survivor : Survivor}
    (h : survivor ∈ c.survivors) :
    survivor.filter.Describes c.declaredParams survivor.comparison := by
  obtain ⟨f, -, hf⟩ := List.mem_filterMap.mp h
  unfold Filter.survivor? at hf
  split_ifs at hf
  obtain ⟨operator, ho, hf⟩ := Option.bind_eq_some_iff.mp hf
  obtain ⟨comparison, hcomparison, rfl⟩ := Option.map_eq_some_iff.mp hf
  exact Filter.describes_of_checkComparison _ ho hcomparison

namespace Survivor

theorem comparisonsOf_links (xs : List Survivor) :
    comparisonsOf (xs.map fun s => s.link s.filter.connective) = xs.map comparison := by
  induction xs with
  | nil => rfl
  | cons s xs ih => rw [List.map_cons, comparisonsOf, ih]; rfl

theorem runLink_comparisons {run : List Survivor} {link : Link} (h : runLink run = some link) :
    link.comparisons = run.map comparison := by
  match run, h with
  | [only], rfl => rfl
  | first :: second :: rest, rfl =>
    simp only [Link.comparisons, Predicate.comparisons, comparisonsOf, comparisonsOf_links]
    rfl

theorem runs_comparisons {rs : List (List Survivor)} {links : List Link}
    (h : links.map some = rs.map runLink) : comparisonsOf links = rs.flatten.map comparison := by
  induction rs generalizing links with
  | nil =>
    rw [List.map_nil, List.map_eq_nil_iff] at h
    rw [h]
    rfl
  | cons run rs ih =>
    cases links with
    | nil => cases h
    | cons link links =>
      obtain ⟨hlink, hlinks⟩ := List.cons_eq_cons.mp h
      rw [comparisonsOf, runLink_comparisons hlink.symm, ih hlinks, List.flatten_cons,
        List.map_append]

theorem runLink_group {run : List Survivor} {link : Link} {members : List Link}
    (h : runLink run = some link) (hg : link.predicate = .group members) :
    2 ≤ members.length ∧ ∀ member ∈ members, ∃ comparison, member.predicate = .compare comparison := by
  match run, h with
  | [only], rfl => cases hg
  | first :: second :: rest, rfl =>
    cases hg
    refine ⟨by simp, ?_⟩
    intro member hmember
    rcases List.mem_cons.mp hmember with rfl | hmember
    · exact ⟨_, rfl⟩
    · obtain ⟨s, -, rfl⟩ := List.mem_map.mp hmember
      exact ⟨_, rfl⟩

end Survivor

theorem Config.filter_runs (c : Config) :
    c.resolve.endpoint.query.filter.map some = (Survivor.runs c.survivors).map Survivor.runLink := by
  change (Chain.ofClauses c.filterSurvey.results).map some = _
  rw [c.filterSurvey_results, Survivor.ofClauses_runs]

example :
    Chain.sql (Config.resolve {
      filters := [
        { column := "a", operator := some .eq, value := "1", group := some "g" },
        { column := "b", operator := some .eq, value := "2", group := some " g ",
          connective := .or },
        { column := "c", operator := some .isNull, group := some "g", startsGroup := true,
          connective := .or },
        { column := "d", operator := some .isNull, group := some " " }] }).endpoint.query.filter =
      "(a = 1 OR b = 2) OR c IS NULL AND d IS NULL" := by
  decide

theorem Config.filter_comparisons (c : Config) :
    c.resolve.endpoint.query.filter.comparisons = c.survivors.map Survivor.comparison := by
  rw [Chain.comparisons, Survivor.runs_comparisons c.filter_runs, Survivor.runs,
    List.flatten_splitBy]

/-- The chain is one link for each run, so it has the surviving comparisons in order, and a group
is two leaves or more. -/
theorem filter_eq_runs (c : Config) :
    c.resolve.endpoint.query.filter.map some = (Survivor.runs c.survivors).map Survivor.runLink ∧
      c.resolve.endpoint.query.filter.comparisons = c.survivors.map Survivor.comparison ∧
      ∀ link ∈ c.resolve.endpoint.query.filter, ∀ members, link.predicate = .group members →
        2 ≤ members.length ∧
          ∀ member ∈ members, ∃ comparison, member.predicate = .compare comparison := by
  refine ⟨c.filter_runs, c.filter_comparisons, ?_⟩
  intro link hlink members hmembers
  have hsome : some link ∈ (Survivor.runs c.survivors).map Survivor.runLink := by
    rw [← c.filter_runs]
    exact List.mem_map_of_mem hlink
  obtain ⟨run, -, hrun⟩ := List.mem_map.mp hsome
  exact Survivor.runLink_group hrun hmembers

end EndpointPreview
