import Mathlib.Order.Bounds.Basic
import EndpointPreview.Proofs.PageSize
import EndpointPreview.Proofs.SurveyLaws
/-!
The numbers of a paged endpoint. The limit of its query is the least of the bounds that are set, the
page of the response has the same limit, and the total takes the least number of such pages that
hold it.
-/

namespace EndpointPreview

namespace Config

/-- A greatest limit of zero is none. -/
def Pagination.greatest? (p : Pagination) : Option UInt32 :=
  if 0 < p.maxLimit then some p.maxLimit else none

def bounds (c : Config) : List UInt32 :=
  [c.pagination.defaultLimit] ++ c.pagination.greatest?.toList ++ c.hardLimit.toList

theorem Pagination.isTooHigh_iff (p : Pagination) :
    p.isTooHigh = true ↔ 0 < p.maxLimit ∧ p.maxLimit < p.defaultLimit := by
  simp [isTooHigh]

theorem Pagination.capped_greatest (p : Pagination) :
    (if p.isTooHigh then p.maxLimit else p.defaultLimit) = capped p.defaultLimit p.greatest? := by
  by_cases hmax : 0 < p.maxLimit
  · rw [greatest?, if_pos hmax]
    change _ = if p.defaultLimit ≤ p.maxLimit then p.defaultLimit else p.maxLimit
    by_cases hle : p.defaultLimit ≤ p.maxLimit
    · rw [if_pos hle, if_neg]
      intro h
      exact UInt32.not_lt.mpr hle (p.isTooHigh_iff.mp h).2
    · rw [if_neg hle, if_pos]
      exact p.isTooHigh_iff.mpr ⟨hmax, UInt32.not_le.mp hle⟩
  · rw [greatest?, if_neg hmax, if_neg]
    · rfl
    · exact fun h => hmax (p.isTooHigh_iff.mp h).1

theorem isLeast_capped {bounds : List UInt32} {count : UInt32}
    (h : IsLeast {n | n ∈ bounds} count) (greatest : Option UInt32) :
    IsLeast {n | n ∈ bounds ++ greatest.toList} (capped count greatest) := by
  cases greatest with
  | none => simpa [capped] using h
  | some g =>
    obtain ⟨hmem, hleast⟩ := h
    change IsLeast _ (min count g)
    constructor
    · apply List.mem_append.mpr
      rcases Std.min_eq_or (a := count) (b := g) with he | he <;> rw [he]
      · exact .inl hmem
      · exact .inr List.mem_cons_self
    · intro n hn
      rcases List.mem_append.mp hn with hn | hn
      · exact UInt32.le_trans Std.min_le_left (hleast hn)
      · rw [List.mem_singleton.mp hn]
        exact Std.min_le_right

theorem isLeast_bounds (c : Config) :
    IsLeast {n | n ∈ c.bounds}
      (capped (capped c.pagination.defaultLimit c.pagination.greatest?) c.hardLimit) := by
  have hdefault : IsLeast {n | n ∈ [c.pagination.defaultLimit]} c.pagination.defaultLimit := by
    refine ⟨List.mem_cons_self, ?_⟩
    intro n hn
    rw [List.mem_singleton.mp hn]
    exact UInt32.le_refl _
  exact isLeast_capped (isLeast_capped hdefault _) _

theorem limit_of_enabled {c : Config} (h : c.pagination.enabled = true) :
    ∃ count, c.limit = some ⟨count, true⟩ ∧ IsLeast {n | n ∈ c.bounds} count := by
  refine ⟨_, ?_, c.isLeast_bounds⟩
  simp only [limit, h, ↓reduceIte, Pagination.capped_greatest]

theorem limit_of_disabled {c : Config} (h : c.pagination.enabled = false) :
    c.limit = c.hardLimit.map fun count => ⟨count, false⟩ := by
  simp only [limit, h, Bool.false_eq_true, ↓reduceIte]

end Config

theorem isLeast_roundedUp (n : Nat) {d : Nat} (hd : 0 < d) :
    IsLeast {p | n ≤ p * d} ((n + (d - 1)) / d) := by
  constructor
  · have h := Nat.lt_mul_div_succ (n + (d - 1)) hd
    rw [Nat.mul_add, Nat.mul_one, Nat.mul_comm] at h
    change n ≤ _
    omega
  · intro p (hp : n ≤ p * d)
    apply Nat.le_of_lt_succ
    rw [Nat.div_lt_iff_lt_mul hd, Nat.succ_mul]
    omega

theorem roundedUp_eq (n : Nat) {d : Nat} (hd : 0 < d) :
    (n + (d - 1)) / d = if n % d = 0 then n / d else n / d + 1 := by
  have hmod := Nat.mod_lt n hd
  have hsplit : n + (d - 1) = d * (n / d) + (n % d + (d - 1)) := by
    have h := Nat.div_add_mod n d
    omega
  rw [hsplit, Nat.mul_add_div hd]
  by_cases h : n % d = 0
  · have hlt : d - 1 < d := by omega
    rw [if_pos h, h, Nat.zero_add, Nat.div_eq_of_lt hlt, Nat.add_zero]
  · have hone : (n % d + (d - 1)) / d = 1 := by
      apply Nat.div_eq_of_lt_le <;> omega
    rw [if_neg h, hone]

/-- A quotient of words, rounded up. There is none where the divisor is zero or the quotient is not
a word. -/
def roundedUp? (n d : UInt32) : Option UInt32 :=
  if d = 0 then none
  else if n % d = 0 then some (n / d)
  else if (n / d).toNat + 1 < UInt32.size then some (n / d + 1)
  else none

theorem roundedUp?_eq_some (n : UInt32) {d : UInt32} (hd : d ≠ 0) :
    ∃ q, roundedUp? n d = some q ∧ q.toNat = (n.toNat + (d.toNat - 1)) / d.toNat := by
  have hpos : 0 < d.toNat := by
    apply Nat.pos_of_ne_zero
    exact fun h => hd (UInt32.toNat_inj.mp h)
  have hmod : n % d = 0 ↔ n.toNat % d.toNat = 0 := by
    rw [← UInt32.toNat_inj, UInt32.toNat_mod]
    rfl
  rw [roundedUp?, if_neg hd, roundedUp_eq _ hpos]
  by_cases h : n % d = 0
  · rw [if_pos h, if_pos (hmod.mp h)]
    exact ⟨_, rfl, UInt32.toNat_div n d⟩
  · -- With a remainder the divisor is two at least, so the quotient is smaller than the word.
    have hne := mt hmod.mpr h
    have htwo : 1 < d.toNat := by
      by_contra hone
      have he : d.toNat = 1 := by omega
      rw [he, Nat.mod_one] at hne
      exact hne rfl
    have hn : 0 < n.toNat := by
      apply Nat.pos_of_ne_zero
      intro hzero
      rw [hzero, Nat.zero_mod] at hne
      exact hne rfl
    have hlt := Nat.div_lt_self hn htwo
    have hsize := n.toNat_lt_size
    have hfits : (n / d).toNat + 1 < UInt32.size := by
      rw [UInt32.toNat_div]
      omega
    rw [if_neg h, if_pos hfits, if_neg hne]
    refine ⟨_, rfl, ?_⟩
    rw [UInt32.toNat_add, UInt32.toNat_div, UInt32.toNat_one, Nat.mod_eq_of_lt]
    rwa [UInt32.toNat_div] at hfits

theorem EntryList.head_path_entry (list : EntryList) (i : Nat) (part : Part) :
    (Location.entry list i part).path.toList.head? = list.key.toList.head? := by
  have hpath : (Location.entry list i part).path =
      list.key ++ ("[" ++ toString i ++ "]." ++ part.key) := by
    simp [Location.path, String.append_assoc, toString]
  rw [hpath, String.toList_append]
  cases list <;> rfl

theorem Location.path_eq_defaultLimit {location : Location} :
    location.path = "pagination.defaultLimit" ↔ location = .defaultLimit := by
  constructor
  · intro h
    cases location with
    | defaultLimit => rfl
    | primaryTable => exact absurd h (by decide)
    | primaryName => exact absurd h (by decide)
    | entry list i part =>
      have hhead := list.head_path_entry i part
      rw [h] at hhead
      cases list <;> exact absurd hhead (by decide)
  · rintro rfl
    rfl

theorem Survey.filter_defaultLimit {α σ : Type} (list : EntryList)
    (check : List α → σ → Check α) (entries : List σ) :
    (of list check entries).diagnostics.filter (·.location = .defaultLimit) = [] := by
  rw [List.filter_eq_nil_iff, of_eq]
  intro d hd
  obtain ⟨i, _, -, flaw, -, rfl⟩ := mem_reports.mp hd
  simp [Flaw.at]

theorem Config.filter_defaultLimit (c : Config) :
    c.resolve.diagnostics.filter (·.location = .defaultLimit) = c.limitDiagnostics := by
  have hsource : c.checkSource.2.filter (·.location = .defaultLimit) = [] := by
    rw [List.filter_eq_nil_iff]
    intro d hd
    rcases location_of_source hd with he | he <;> simp [he]
  have hlimit : c.limitDiagnostics.filter (·.location = .defaultLimit) = c.limitDiagnostics := by
    rw [List.filter_eq_self]
    intro d hd
    simpa using location_of_limit hd
  rw [resolve_diagnostics]
  simp only [List.filter_append, hsource, hlimit, selection, joinSurvey, filterSurvey, orderSurvey,
    paramSurvey, Survey.each, Survey.filter_defaultLimit, List.nil_append, List.append_nil]

def Preview.diagnosticsAt (p : Preview) (path : String) : List Diagnostic :=
  p.diagnostics.filter (·.location.path = path)

theorem Config.diagnosticsAt_defaultLimit (c : Config) (host : String) :
    (c.preview host).diagnosticsAt "pagination.defaultLimit" =
      if c.pagination.enabled && c.pagination.isTooHigh then
        [⟨.defaultLimit, .limitTooHigh c.pagination.defaultLimit c.pagination.maxLimit⟩]
      else [] := by
  simp only [Preview.diagnosticsAt, Location.path_eq_defaultLimit]
  exact c.filter_defaultLimit

theorem Page.member?_limit (p : Page) : p.json.member? "limit" = some (.ofNat p.limit) := by
  obtain ⟨total, number, limit, pages⟩ := p
  cases total <;> rfl

theorem Page.member?_pages (p : Page) : p.json.member? "pages" = p.pages.map Json.ofNat := by
  obtain ⟨total, number, limit, pages⟩ := p
  cases total <;> cases pages <;> rfl

theorem toNat_max_one (n : UInt32) : (max n 1).toNat = max n.toNat 1 := by
  change (if n ≤ 1 then 1 else n).toNat = _
  by_cases h : n ≤ 1
  · have hle := UInt32.le_iff_toNat_le.mp h
    rw [if_pos h, UInt32.toNat_one]
    rw [UInt32.toNat_one] at hle
    omega
  · have hlt := mt UInt32.le_iff_toNat_le.mpr h
    rw [if_neg h]
    rw [UInt32.toNat_one] at hlt
    omega

theorem roundedUp?_total (count : UInt32) :
    ∃ pages, roundedUp? 100 (max count 1) = some pages ∧
      pages.toNat = (sampleTotal + (max count.toNat 1 - 1)) / max count.toNat 1 ∧
      IsLeast {n | 100 ≤ n * max count.toNat 1} pages.toNat := by
  have hne : max count 1 ≠ 0 := by
    intro h
    have hzero := congrArg UInt32.toNat h
    rw [toNat_max_one, UInt32.toNat_zero] at hzero
    omega
  obtain ⟨pages, hpages, hcount⟩ := roundedUp?_eq_some 100 hne
  rw [toNat_max_one] at hcount
  refine ⟨pages, hpages, hcount, ?_⟩
  rw [hcount]
  exact isLeast_roundedUp 100 (by omega)

theorem Endpoint.page_of_paged {e : Endpoint} {count : UInt32} (he : e.pagination.enabled = true)
    (h : e.query.limit = some ⟨count, true⟩) :
    ∃ page, e.page = some page ∧ page.limit = count.toNat ∧
      (e.pagination.includeTotal = true → ∃ pages, roundedUp? 100 (max count 1) = some pages ∧
        page.pages = some pages.toNat ∧ IsLeast {n | 100 ≤ n * max count.toNat 1} pages.toNat) ∧
      (e.pagination.includeTotal = false → page.pages = none) := by
  obtain ⟨pages, hpages, hcount, hleast⟩ := roundedUp?_total count
  simp only [page, he, ↓reduceIte, pageSize_of_paged h]
  refine ⟨_, rfl, rfl, ?_, ?_⟩
  · intro htotal
    refine ⟨pages, hpages, ?_, hleast⟩
    simp only [htotal, ↓reduceIte, hcount]
  · intro htotal
    simp only [htotal, Bool.false_eq_true, ↓reduceIte]

theorem Endpoint.page_of_unpaged {e : Endpoint} (he : e.pagination.enabled = false) :
    e.page = none := by
  simp only [page, he, Bool.false_eq_true, ↓reduceIte]

/-- The limit of the query, the report on the default limit and the page of the response, with pages
and without. -/
theorem paging_numbers_agree (c : Config) (host : String) :
    let limit := c.resolve.endpoint.query.limit
    let shown := (c.preview host).response.json.member? "meta"
    let reported := (c.preview host).diagnosticsAt "pagination.defaultLimit"
    let p := c.pagination
    (p.enabled = true →
      ∃ count page, limit = some ⟨count, true⟩ ∧ IsLeast {n | n ∈ c.bounds} count ∧
        limit.map Limit.sql =
          some ("LIMIT " ++ toString count.toNat ++ " OFFSET \x7b\x7boffset\x7d\x7d") ∧
        reported = (if 0 < p.maxLimit ∧ p.maxLimit < p.defaultLimit then
          [⟨.defaultLimit, .limitTooHigh p.defaultLimit p.maxLimit⟩] else []) ∧
        shown = some page ∧ page.member? "limit" = some (.ofNat count.toNat) ∧
        (p.includeTotal = true → ∃ pages, roundedUp? 100 (max count 1) = some pages ∧
          page.member? "pages" = some (.ofNat pages.toNat) ∧
          IsLeast {n | 100 ≤ n * max count.toNat 1} pages.toNat) ∧
        (p.includeTotal = false → page.member? "pages" = none)) ∧
    (p.enabled = false →
      limit = c.hardLimit.map (⟨·, false⟩) ∧
      limit.map Limit.sql = c.hardLimit.map (fun count => "LIMIT " ++ toString count.toNat) ∧
      reported = [] ∧ shown = none) := by
  intro limit shown reported p
  have hshown : shown = c.resolve.endpoint.page.map Page.json := Response.member?_page _
  have hreported : reported = _ := c.diagnosticsAt_defaultLimit host
  constructor
  · intro (he : c.pagination.enabled = true)
    obtain ⟨count, hcapped, hleast⟩ := Config.limit_of_enabled he
    have hlimit : limit = some ⟨count, true⟩ := hcapped
    obtain ⟨page, hpage, hcount, htotal, huntold⟩ := Endpoint.page_of_paged he hlimit
    refine ⟨count, page.json, hlimit, hleast, ?_, ?_, ?_, ?_, ?_, ?_⟩
    · rw [hlimit]
      rfl
    · simp only [hreported, he, Bool.true_and, Config.Pagination.isTooHigh_iff, p]
    · rw [hshown, hpage, Option.map_some]
    · rw [page.member?_limit, hcount]
    · intro h
      obtain ⟨pages, hpages, hcounted, hfewest⟩ := htotal h
      refine ⟨pages, hpages, ?_, hfewest⟩
      rw [page.member?_pages, hcounted, Option.map_some]
    · intro h
      rw [page.member?_pages, huntold h, Option.map_none]
  · intro (he : c.pagination.enabled = false)
    have hlimit : limit = c.hardLimit.map (⟨·, false⟩) := Config.limit_of_disabled he
    have hpage : c.resolve.endpoint.page = none := Endpoint.page_of_unpaged he
    refine ⟨hlimit, ?_, ?_, ?_⟩
    · rw [hlimit, Option.map_map]
      congr 1
      funext count
      exact String.append_empty
    · simp only [hreported, he, Bool.false_and, Bool.false_eq_true, ↓reduceIte]
    · rw [hshown, hpage, Option.map_none]

end EndpointPreview
