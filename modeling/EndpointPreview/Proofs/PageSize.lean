import EndpointPreview.Preview
/-!
The page size of a request beside the limit of its query. Both come from the same caps only where
the query is paged: a hard limit alone gives the query a limit that the page size does not follow.
-/

namespace EndpointPreview

namespace Endpoint

def pairsBeforeLimit (e : Endpoint) : List (String × String) :=
  e.params.map (fun p => (p.name, p.example)) ++
    if e.pagination.enabled then [("page", "1")] else []

theorem pairs_of_allowCustomLimit {e : Endpoint} (h : e.pagination.allowCustomLimit = true) :
    ∃ after, e.pairs = e.pairsBeforeLimit ++ ("limit", toString e.pageSize.toNat) :: after := by
  simp only [pairs, pairsBeforeLimit, h, ↓reduceIte, List.append_assoc, List.singleton_append]
  exact ⟨_, rfl⟩

theorem pageSize_of_paged {e : Endpoint} {count : UInt32}
    (h : e.query.limit = some ⟨count, true⟩) : e.pageSize = count := by
  simp only [pageSize, h]

theorem pageSize_of_not_paged {e : Endpoint} {count : UInt32}
    (h : e.query.limit = some ⟨count, false⟩) : e.pageSize = e.pagination.defaultLimit := by
  simp only [pageSize, h]

end Endpoint

theorem toString_toNat_inj {m n : UInt32} : toString m.toNat = toString n.toNat ↔ m = n := by
  constructor
  · intro h
    have hdigits : Nat.toDigits 10 m.toNat = Nat.toDigits 10 n.toNat := by
      simpa only [Nat.toString_eq_ofList_toDigits, String.ofList_inj] using h
    have hvalue := congrArg (Nat.ofDigitChars 10 · 0) hdigits
    simp only [Nat.ofDigitChars_ten_toDigits] at hvalue
    exact UInt32.toNat_inj.mp hvalue
  · intro h
    rw [h]

namespace Config

theorem paged_of_limit {c : Config} {l : Limit} (h : c.limit = some l) :
    l.paged = c.pagination.enabled := by
  unfold limit at h
  dsimp only at h
  split at h
  · next he =>
    cases h
    exact he.symm
  · next he =>
    obtain ⟨count, -, rfl⟩ := Option.map_eq_some_iff.mp h
    exact (Bool.eq_false_iff.mpr he).symm

theorem hardLimit_of_limit {c : Config} {l : Limit} (he : c.pagination.enabled = false)
    (h : c.limit = some l) : c.hardLimit = some l.count := by
  simp only [limit, he, Bool.false_eq_true, ↓reduceIte] at h
  obtain ⟨count, hcount, rfl⟩ := Option.map_eq_some_iff.mp h
  exact hcount

theorem pageSize_eq_count_iff {c : Config} {l : Limit}
    (h : c.resolve.endpoint.query.limit = some l) :
    c.resolve.endpoint.pageSize = l.count ↔
      c.pagination.enabled = true ∨ c.hardLimit = some c.pagination.defaultLimit := by
  have hlimit : c.limit = some l := h
  have hpaged := paged_of_limit hlimit
  obtain ⟨count, paged⟩ := l
  cases he : c.pagination.enabled with
  | true =>
    have hsize : c.resolve.endpoint.pageSize = count :=
      Endpoint.pageSize_of_paged (by rw [h, ← he, ← hpaged])
    simp only [hsize, true_or]
  | false =>
    -- Without pages the limit of the query is the hard limit, and the page size does not know it.
    have hsize : c.resolve.endpoint.pageSize = c.pagination.defaultLimit :=
      Endpoint.pageSize_of_not_paged (by rw [h, ← he, ← hpaged])
    have hhard : c.hardLimit = some count := hardLimit_of_limit he hlimit
    simp only [hsize, hhard, Bool.false_eq_true, false_or, Option.some.injEq]
    exact eq_comm

end Config

/-- A request that may set the limit shows the limit of the query exactly if the query is paged or
its hard limit happens to be the default. -/
theorem limit_pair_eq_count_iff (c : Config) (l : Limit)
    (hlimit : c.resolve.endpoint.query.limit = some l)
    (hallowed : c.resolve.endpoint.pagination.allowCustomLimit = true) :
    ∃ shown after, c.resolve.endpoint.pairs =
        c.resolve.endpoint.pairsBeforeLimit ++ ("limit", shown) :: after ∧
      (shown = toString l.count.toNat ↔
        c.pagination.enabled = true ∨ c.hardLimit = some c.pagination.defaultLimit) := by
  obtain ⟨after, hpairs⟩ := Endpoint.pairs_of_allowCustomLimit hallowed
  refine ⟨_, after, hpairs, ?_⟩
  rw [toString_toNat_inj]
  exact Config.pageSize_eq_count_iff hlimit

def cappedConfig : Config where
  params := [{ name := "limit", kind := .number }]
  pagination := {
    enabled := true, defaultLimit := 80, maxLimit := 60, allowCustomLimit := true }
  hardLimit := some 50

theorem limit_pair_of_cappedConfig :
    cappedConfig.resolve.endpoint.query.limit = some ⟨50, true⟩ ∧
      ∃ shown after, cappedConfig.resolve.endpoint.pairs =
          [("limit", "123"), ("page", "1"), ("limit", shown)] ++ after ∧ shown = toString 50 := by
  obtain ⟨shown, after, hpairs, hshown⟩ :=
    limit_pair_eq_count_iff cappedConfig ⟨50, true⟩ (by decide) (by decide)
  exact ⟨by decide, shown, after, hpairs, hshown.mpr (by decide)⟩

def unpagedConfig : Config where
  primaryTable := "users"
  pagination := { allowCustomLimit := true }
  hardLimit := some 5

/-- The query has five rows at most, and the request asks for ten. -/
theorem unpaged_limit_not_shown :
    unpagedConfig.resolve.endpoint.query.limit = some ⟨5, false⟩ ∧
      unpagedConfig.resolve.endpoint.pairs = [("limit", "10")] ∧ "10" ≠ toString 5 := by
  decide

end EndpointPreview
