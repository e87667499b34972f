import Mathlib.Combinatorics.Enumerative.DyckWord
import EndpointPreview.Query.Sql
/-!
What the text of a filter is made of: the texts of its comparisons in their order, with connectives
between them and brackets around. The brackets are balanced, a pair for each group, and every chain
has one connective less than it has links.
-/

namespace EndpointPreview

mutual

def Predicate.groups : Predicate → List Chain
  | .compare _ => []
  | .group links => links :: groupsOf links

def groupsOf : List Link → List Chain
  | [] => []
  | .mk _ predicate :: links => predicate.groups ++ groupsOf links

end

def Chain.chains (chain : Chain) : List Chain :=
  chain :: groupsOf chain

def gapsIn (chains : List Chain) : Nat :=
  ((chains.filter (!·.isEmpty)).map (·.length - 1)).sum

theorem gapsIn_cons (chain : Chain) (chains : List Chain) :
    gapsIn (chain :: chains) = (chain.length - 1) + gapsIn chains := by
  cases chain <;> simp [gapsIn]

theorem gapsIn_append (chains chains' : List Chain) :
    gapsIn (chains ++ chains') = gapsIn chains + gapsIn chains' := by
  simp [gapsIn]

inductive FilterToken
  | leaf (comparison : Comparison)
  | keyword (connective : Connective)
  | opening
  | closing

namespace FilterToken

def text : FilterToken → String
  | .leaf c => c.sql
  | .keyword .and => " AND "
  | .keyword .or => " OR "
  | .opening => "("
  | .closing => ")"

def comparison? : FilterToken → Option Comparison
  | .leaf c => some c
  | _ => none

def bracket? : FilterToken → Option DyckStep
  | .opening => some .U
  | .closing => some .D
  | _ => none

def isConnective : FilterToken → Bool
  | .keyword _ => true
  | _ => false

/-- What some tokens say: their text, the comparisons in it, and how many pairs of balanced brackets
and how many connectives it has. -/
structure Write (tokens : List FilterToken) (sql : String) (comparisons : List Comparison)
    (pairs connectives : Nat) : Prop where
  text : String.join (tokens.map FilterToken.text) = sql
  comparisons : tokens.filterMap comparison? = comparisons
  balanced : ∃ word : DyckWord, tokens.filterMap bracket? = word.toList ∧ word.semilength = pairs
  connectives : tokens.countP isConnective = connectives

namespace Write

variable {tokens tokens' : List FilterToken} {sql sql' : String}
  {comparisons comparisons' : List Comparison} {pairs pairs' connectives connectives' : Nat}

theorem nil : Write [] "" [] 0 0 :=
  ⟨rfl, rfl, ⟨0, rfl, rfl⟩, rfl⟩

theorem leaf (c : Comparison) : Write [.leaf c] c.sql [c] 0 0 :=
  ⟨by simp [FilterToken.text], rfl, ⟨0, rfl, rfl⟩, rfl⟩

theorem keyword (connective : Connective) :
    Write [.keyword connective] (" " ++ connective.keyword ++ " ") [] 0 1 :=
  ⟨by cases connective <;> rfl, rfl, ⟨0, rfl, rfl⟩, rfl⟩

theorem append (h : Write tokens sql comparisons pairs connectives)
    (h' : Write tokens' sql' comparisons' pairs' connectives') :
    Write (tokens ++ tokens') (sql ++ sql') (comparisons ++ comparisons') (pairs + pairs')
      (connectives + connectives') where
  text := by rw [List.map_append, String.join_append, h.text, h'.text]
  comparisons := by rw [List.filterMap_append, h.comparisons, h'.comparisons]
  balanced := by
    obtain ⟨word, hword, rfl⟩ := h.balanced
    obtain ⟨word', hword', rfl⟩ := h'.balanced
    refine ⟨word + word', ?_, DyckWord.semilength_add⟩
    rw [List.filterMap_append, hword, hword']
    rfl
  connectives := by rw [List.countP_append, h.connectives, h'.connectives]

theorem bracketed (h : Write tokens sql comparisons pairs connectives) :
    Write (.opening :: (tokens ++ [.closing])) ("(" ++ sql ++ ")") comparisons (pairs + 1)
      connectives where
  text := by
    rw [List.map_cons, List.map_append, String.join_cons, String.join_append, h.text,
      ← String.append_assoc]
    rfl
  comparisons := by
    rw [List.filterMap_cons_none rfl, List.filterMap_append, h.comparisons]
    exact List.append_nil comparisons
  balanced := by
    obtain ⟨word, hword, rfl⟩ := h.balanced
    refine ⟨word.nest, ?_, DyckWord.semilength_nest⟩
    have hopening : bracket? .opening = some .U := rfl
    rw [List.filterMap_cons_some hopening, List.filterMap_append, hword]
    rfl
  connectives := by
    rw [List.countP_cons_of_neg Bool.false_ne_true, List.countP_append, h.connectives]
    rfl

theorem chain (connective : Connective) {p : Predicate} {links : List Link}
    (hp : Write tokens p.sql p.comparisons p.groups.length (gapsIn p.groups))
    (hlinks : Write tokens' (linksSql links) (comparisonsOf links) (groupsOf links).length
      (links.length + gapsIn (groupsOf links))) :
    Write (tokens ++ tokens') (Chain.sql (.mk connective p :: links))
      (Chain.comparisons (.mk connective p :: links))
      (groupsOf (.mk connective p :: links)).length
      (gapsIn (Chain.chains (.mk connective p :: links))) := by
  -- The connective of the first link is not written, so this chain has one for each other link.
  have hgaps : gapsIn (Chain.chains (.mk connective p :: links)) =
      gapsIn p.groups + (links.length + gapsIn (groupsOf links)) := by
    rw [Chain.chains, gapsIn_cons, groupsOf, gapsIn_append, List.length_cons, Nat.add_sub_cancel]
    omega
  rw [hgaps, groupsOf, List.length_append]
  exact hp.append hlinks

end Write

end FilterToken

mutual

theorem Predicate.exists_tokens : ∀ p : Predicate, ∃ tokens,
    FilterToken.Write tokens p.sql p.comparisons p.groups.length (gapsIn p.groups)
  | .compare c => ⟨_, .leaf c⟩
  | .group [] => ⟨_, FilterToken.Write.nil.bracketed⟩
  | .group (.mk connective p :: links) => by
    obtain ⟨first, hfirst⟩ := p.exists_tokens
    obtain ⟨rest, hrest⟩ := exists_linkTokens links
    exact ⟨_, (hfirst.chain connective hrest).bracketed⟩

theorem exists_linkTokens : ∀ links : List Link, ∃ tokens,
    FilterToken.Write tokens (linksSql links) (comparisonsOf links) (groupsOf links).length
      (links.length + gapsIn (groupsOf links))
  | [] => ⟨_, .nil⟩
  | .mk connective p :: links => by
    obtain ⟨first, hfirst⟩ := p.exists_tokens
    obtain ⟨rest, hrest⟩ := exists_linkTokens links
    -- These links come after another one, so each has its connective in front.
    have hlinks := ((FilterToken.Write.keyword connective).append hfirst).append hrest
    have hpairs : 0 + p.groups.length + (groupsOf links).length =
        (groupsOf (.mk connective p :: links)).length := by
      rw [groupsOf, List.length_append, Nat.zero_add]
    have hgaps : 1 + gapsIn p.groups + (links.length + gapsIn (groupsOf links)) =
        (Link.mk connective p :: links).length + gapsIn (groupsOf (.mk connective p :: links)) := by
      rw [groupsOf, gapsIn_append, List.length_cons]
      omega
    rw [hpairs, hgaps] at hlinks
    exact ⟨_, hlinks⟩

end

theorem Chain.exists_tokens (chain : Chain) : ∃ tokens, FilterToken.Write tokens chain.sql
    chain.comparisons (groupsOf chain).length (gapsIn chain.chains) := by
  cases chain with
  | nil => exact ⟨[], .nil⟩
  | cons link links =>
    obtain ⟨connective, p⟩ := link
    obtain ⟨first, hfirst⟩ := p.exists_tokens
    obtain ⟨rest, hrest⟩ := exists_linkTokens links
    exact ⟨first ++ rest, hfirst.chain connective hrest⟩

/-- The text of a filter is written from tokens, whatever its tree is. The comparisons among them are
those that a request can ask for, and nothing but brackets and connectives is put to them. -/
theorem filter_text_of_tokens (chain : Chain) : ∃ tokens : List FilterToken,
    chain.sql = String.join (tokens.map FilterToken.text) ∧
    tokens.filterMap FilterToken.comparison? = chain.comparisons ∧
    (∃ word : DyckWord, tokens.filterMap FilterToken.bracket? = word.toList ∧
      word.semilength = (groupsOf chain).length) ∧
    tokens.countP FilterToken.isConnective = gapsIn chain.chains ∧
    chain.clause = if chain.isEmpty then none
      else some ("WHERE " ++ String.join (tokens.map FilterToken.text)) := by
  obtain ⟨tokens, h⟩ := chain.exists_tokens
  refine ⟨tokens, h.text.symm, h.comparisons, h.balanced, h.connectives, ?_⟩
  rw [h.text]
  rfl

end EndpointPreview
