import EndpointPreview.Proofs.Coverage
import EndpointPreview.Proofs.Deletion
/-!
Entries that are not filled in yet. Such an entry has no node, so turning it off changes nothing that
is shown; and it is passed over in silence, but for the name of a field, which is checked before the
rest of the field is looked at.
-/

namespace EndpointPreview

namespace Deletion

variable {α : Type}

theorem without_modify (f : α → α) (i start : Nat) (entries : List α) :
    without [start + i] start (entries.modify i f) = without [start + i] start entries := by
  induction entries generalizing i start with
  | nil => rw [List.modify_nil]
  | cons entry entries ih =>
    cases i with
    | zero => rw [List.modify_zero_cons, without_cons, without_cons, if_pos (by simp), if_pos (by simp)]
    | succ i =>
      have hrest := ih i (start + 1)
      rw [Nat.add_right_comm, Nat.add_assoc] at hrest
      rw [List.modify_succ_cons, without_cons, without_cons, hrest]

def only (list : EntryList) (i : Nat) : Deletion :=
  fun other => if other = list then [i] else []

end Deletion

theorem forall₂_modify {α : Type} {R : α → α → Prop} (hrefl : ∀ a, R a a) {f : α → α} {i : Nat}
    {entries : List α} (h : ∀ a, entries[i]? = some a → R a (f a)) :
    List.Forall₂ R entries (entries.modify i f) := by
  induction entries generalizing i with
  | nil =>
    rw [List.modify_nil]
    exact .nil
  | cons a entries ih =>
    cases i with
    | zero => exact .cons (h a rfl) (List.forall₂_same.mpr fun b _ => hrefl b)
    | succ i => exact .cons (hrefl a) (ih h)

namespace Config

def disable (c : Config) : EntryList → Nat → Config
  | .fields, i => { c with fields := c.fields.modify i fun f => { f with enabled := false } }
  | .joins, i => { c with joins := c.joins.modify i fun j => { j with enabled := false } }
  | .filters, i => { c with filters := c.filters.modify i fun f => { f with enabled := false } }
  | .sorting, i => { c with sorting := c.sorting.modify i fun s => { s with enabled := false } }
  | .params, i => { c with params := c.params.modify i fun p => { p with enabled := false } }

def IsIncomplete (c : Config) : EntryList → Nat → Prop
  | .fields, i => ∃ f, c.fields[i]? = some f ∧ f.enabled = true ∧ f.isComplete = false
  | .joins, i => ∃ j, c.joins[i]? = some j ∧ j.enabled = true ∧ j.isComplete = false
  | .filters, i => ∃ f, c.filters[i]? = some f ∧ f.enabled = true ∧ f.isComplete = false
  | .sorting, i => ∃ s, c.sorting[i]? = some s ∧ s.enabled = true ∧ s.isComplete = false
  | .params, i => ∃ p, c.params[i]? = some p ∧ p.enabled = true ∧ p.isComplete = false

def Field.NameIsSafe (f : Field) : Prop :=
  ∀ name, f.asName.bind Text.filled = some name → isIdentifier name = true

def NameIsSafe (c : Config) (list : EntryList) (i : Nat) : Prop :=
  list = .fields → ∀ f, c.fields[i]? = some f → f.NameIsSafe

def size (c : Config) : EntryList → Nat
  | .fields => c.fields.length
  | .joins => c.joins.length
  | .filters => c.filters.length
  | .sorting => c.sorting.length
  | .params => c.params.length

theorem checkAsName_of_safe {f : Field} (h : f.NameIsSafe) :
    ∃ name, checkAsName f.asName = .pass name := by
  unfold checkAsName
  split
  · next text htext =>
    have hsafe : isIdentifier (Text.trim text) = true := by
      rw [filled_trim htext]
      exact h text htext
    have hident : Ident.ofText? text = some ⟨Text.trim text, hsafe⟩ :=
      Ident.ofText?_eq_some.mpr rfl
    exact ⟨some ⟨_, hsafe⟩, by rw [checkIdent, hident]; rfl⟩
  · exact ⟨none, rfl⟩

theorem Field.checkExpr_incomplete {f : Field} (h : f.isComplete = false) :
    f.checkExpr = .skip := by
  simp only [isComplete, Bool.or_eq_false_iff, Option.isSome_eq_false_iff,
    Option.isNone_iff_eq_none, Bool.not_eq_false', beq_eq_false_iff_ne] at h
  obtain ⟨⟨hraw, hblank⟩, hcount⟩ := h
  unfold checkExpr
  rw [hraw, hblank]
  cases hf : f.aggregation with
  | count => exact absurd hf hcount
  | _ => rfl

theorem Field.check_incomplete {f : Field} (h : f.isComplete = false) (hname : f.NameIsSafe)
    (before : List Projection) : f.check before = .skip := by
  obtain ⟨name, hpass⟩ := checkAsName_of_safe hname
  unfold check
  split
  · rw [hpass, checkExpr_incomplete h]
    rfl
  · rfl

theorem Field.flaw_of_unsafe_name {f : Field} (he : f.enabled = true) {name : String}
    (hname : f.asName.bind Text.filled = some name) (hbad : isIdentifier name = false)
    (before : List Projection) : ⟨.asName, .badName name⟩ ∈ (f.check before).flaws := by
  have htrim := filled_trim hname
  have hident : Ident.ofText? name = none := by
    rw [Ident.ofText?, htrim, dif_neg (by rw [hbad]; decide)]
  have hcheck : checkAsName f.asName = .refuse .asName (.badName name) := by
    simp only [checkAsName, hname, checkIdent, hident, htrim]
    rfl
  unfold check
  rw [if_pos he, hcheck]
  exact List.mem_cons_self

theorem Join.check_incomplete {j : Join} (h : j.isComplete = false) (source : Option TableRef) :
    j.check source = .skip := by
  simp [check, h]

theorem Filter.check_incomplete {f : Filter} (h : f.isComplete = false) (declared : List String) :
    f.check declared = .skip := by
  unfold check
  cases ho : f.operator with
  | none => rfl
  | some operator =>
    have hblank : Text.blank f.column = true := by simpa [isComplete, ho] using h
    simp [hblank]

theorem SortKey.check_incomplete {s : SortKey} (h : s.isComplete = false) : s.check = .skip := by
  have hblank : Text.blank s.column = true := by simpa [isComplete] using h
  simp [check, hblank]

theorem Param.check_incomplete {p : Param} (h : p.isComplete = false) : p.check = .skip := by
  have hblank : Text.blank p.name = true := by simpa [isComplete] using h
  simp [check, hblank]

variable {c : Config} {list : EntryList} {i : Nat}

theorem disable_without (c : Config) (list : EntryList) (i : Nat) :
    (c.disable list i).without (Deletion.only list i) = c.without (Deletion.only list i) := by
  have hmodify : ∀ {α : Type} (f : α → α) (entries : List α),
      Deletion.without [i] 0 (entries.modify i f) = Deletion.without [i] 0 entries := by
    intro α f entries
    simpa only [Nat.zero_add] using Deletion.without_modify f i 0 entries
  cases list <;> simp [disable, without, Deletion.only, hmodify]

theorem not_enabled_disable (c : Config) (list : EntryList) (i : Nat) :
    ¬(c.disable list i).IsEnabled list i := by
  cases list
  all_goals
    rintro ⟨entry, hi, he⟩
    simp only [disable, List.getElem?_modify_eq, Option.map_eq_map, Option.map_eq_some_iff] at hi
    obtain ⟨_, -, rfl⟩ := hi
    cases he

theorem enabled_of_wanted (h : c.IsWanted list i) : c.IsEnabled list i := by
  cases list with
  | joins =>
    obtain ⟨j, hi, he, -⟩ := h
    exact ⟨j, hi, he⟩
  | _ =>
    obtain ⟨entry, hi, he, -⟩ := h
    exact ⟨entry, hi, he⟩

theorem not_wanted_of_incomplete (h : c.IsIncomplete list i) : ¬c.IsWanted list i := by
  cases list with
  | joins =>
    obtain ⟨j, hi, -, hincomplete⟩ := h
    rintro ⟨k, hk, -, hcomplete, -⟩
    cases hi.symm.trans hk
    rw [hincomplete] at hcomplete
    cases hcomplete
  | _ =>
    obtain ⟨entry, hi, -, hincomplete⟩ := h
    rintro ⟨other, hother, -, hcomplete⟩
    cases hi.symm.trans hother
    rw [hincomplete] at hcomplete
    cases hcomplete

theorem lt_size_of_incomplete (h : c.IsIncomplete list i) : i < c.size list := by
  cases list
  all_goals
    obtain ⟨entry, hi, -⟩ := h
    exact (List.getElem?_eq_some_iff.mp hi).1

theorem size_disable (c : Config) (list : EntryList) (i : Nat) :
    (c.disable list i).size list = c.size list := by
  cases list <;> simp [disable, size]

theorem length_yields (c : Config) (list : EntryList) : (c.yields list).length = c.size list := by
  cases list with
  | fields =>
    rw [yields, Survey.yields, List.length_map]
    exact (Survey.forall₂_checks Field.check [] c.fields).length_eq.symm
  | _ => simp [yields, Survey.yields, size]

theorem isAbsent_of_not_wanted (hi : i < c.size list) (h : ¬c.IsWanted list i) :
    c.IsAbsent list i := by
  rw [← length_yields] at hi
  have hyield := List.getElem?_eq_getElem hi
  cases hb : (c.yields list)[i] with
  | false => rwa [hb] at hyield
  | true =>
    rw [hb] at hyield
    exact absurd (wanted_of_kept (Survey.mem_kept.mpr hyield)) h

theorem absent_only (h : c.IsAbsent list i) :
    ∀ other, ∀ j ∈ Deletion.only list i other, c.IsAbsent other j := by
  intro other j hj
  unfold Deletion.only at hj
  split at hj
  · next hlist =>
    rw [hlist, List.mem_singleton.mp hj]
    exact h
  · cases hj

/-- Turned off or not, an incomplete entry is absent, and without it the two configurations are
one. -/
theorem endpoint_disable (h : c.IsIncomplete list i) :
    (c.disable list i).resolve.endpoint = c.resolve.endpoint := by
  have hi := lt_size_of_incomplete h
  have habsent : c.IsAbsent list i := isAbsent_of_not_wanted hi (not_wanted_of_incomplete h)
  have hoff : (c.disable list i).IsAbsent list i := by
    apply isAbsent_of_not_wanted
    · rwa [size_disable]
    · exact fun hw => not_enabled_disable c list i (enabled_of_wanted hw)
  rw [← endpoint_without (absent_only hoff), disable_without, endpoint_without (absent_only habsent)]

theorem alike_disable (h : c.IsIncomplete list i) (hname : c.NameIsSafe list i) :
    c.Alike (c.disable list i) := by
  cases list with
  | fields =>
    obtain ⟨f, hi, -, hf⟩ := h
    refine Alike.withFields (forall₂_modify (fun _ _ => rfl) ?_)
    intro g hg before
    cases hi.symm.trans hg
    rw [Field.check_disabled rfl, Field.check_incomplete hf (hname rfl f hi)]
  | joins =>
    obtain ⟨j, hi, -, hj⟩ := h
    refine Alike.withJoins (forall₂_modify (fun _ _ => rfl) ?_)
    intro k hk source
    cases hi.symm.trans hk
    rw [Join.check_disabled rfl, Join.check_incomplete hj]
  | filters =>
    obtain ⟨f, hi, -, hf⟩ := h
    refine Alike.withFilters (forall₂_modify (fun _ _ => rfl) ?_)
    intro g hg declared
    cases hi.symm.trans hg
    rw [Filter.check_disabled declared rfl, Filter.check_incomplete hf]
  | sorting =>
    obtain ⟨s, hi, -, hs⟩ := h
    refine Alike.withSorting (forall₂_modify ?_ ?_)
    · exact fun _ => rfl
    · intro t ht
      cases hi.symm.trans ht
      rw [SortKey.check_disabled rfl, SortKey.check_incomplete hs]
  | params =>
    obtain ⟨p, hi, -, hp⟩ := h
    refine Alike.withParams (forall₂_modify ?_ ?_)
    · exact fun _ => rfl
    · intro q hq
      cases hi.symm.trans hq
      rw [Param.check_disabled rfl, Param.check_incomplete hp]

theorem enabled_of_location {d : Diagnostic} {part : Part} (hd : d ∈ c.resolve.diagnostics)
    (hlocation : d.location = .entry list i part) : c.IsEnabled list i := by
  rcases mem_diagnostics.mp hd with hd | hd | ⟨other, hd⟩
  · rcases location_of_source hd with h | h <;> rw [hlocation] at h <;> cases h
  · have h := location_of_limit hd
    rw [hlocation] at h
    cases h
  · obtain ⟨j, other', he, h⟩ := enabled_of_reported hd
    rw [hlocation] at h
    cases h
    exact he

theorem diagnostic_of_unsafe_name {f : Field} (hi : c.fields[i]? = some f)
    (he : f.enabled = true) {name : String} (hname : f.asName.bind Text.filled = some name)
    (hbad : isIdentifier name = false) :
    ⟨.entry .fields i .asName, .badName name⟩ ∈ c.resolve.diagnostics := by
  apply mem_diagnostics.mpr
  right
  right
  obtain ⟨_, hchecked, before, rfl⟩ :=
    Survey.checked_of_entry (Survey.forall₂_checks Field.check [] c.fields) hi
  exact ⟨.fields, Survey.mem_reports.mpr ⟨i, _, hchecked, _,
    f.flaw_of_unsafe_name he hname hbad before, rfl⟩⟩

theorem diagnostics_disable_iff (h : c.IsIncomplete list i) :
    (c.disable list i).resolve.diagnostics = c.resolve.diagnostics ↔ c.NameIsSafe list i := by
  constructor
  · rintro hsame rfl f hi name hname
    obtain ⟨g, hg, he, -⟩ := h
    cases hi.symm.trans hg
    by_contra hbad
    have hd := diagnostic_of_unsafe_name hi he hname (Bool.eq_false_iff.mpr hbad)
    rw [← hsame] at hd
    exact not_enabled_disable c .fields i (enabled_of_location hd rfl)
  · intro hname
    rw [(alike_disable h hname).resolve]

end Config

/-- Turning off an entry that is not filled in changes nothing, unless it is a field whose name is
not safe: then its diagnostic goes. -/
theorem preview_disable_incomplete (c : Config) (host : String) (list : EntryList) (i : Nat)
    (h : c.IsIncomplete list i) :
    ((c.disable list i).preview host).query = (c.preview host).query ∧
      ((c.disable list i).preview host).url = (c.preview host).url ∧
      ((c.disable list i).preview host).response = (c.preview host).response ∧
      (((c.disable list i).preview host).diagnostics = (c.preview host).diagnostics ↔
        c.NameIsSafe list i) := by
  have hendpoint := Config.endpoint_disable h
  have hdiagnostics := Config.diagnostics_disable_iff h
  simp only [Config.preview]
  rw [hendpoint]
  exact ⟨rfl, rfl, rfl, hdiagnostics⟩

def halfTypedConfig : Config where
  primaryTable := "users"
  fields := [{ asName := some " total ", aggregation := .sum }, { asName := some "bad name" }]
  joins := [{ table := "orders; --", asName := some "o o", leftColumn := "id" }]
  filters := [{ column := "1=1", value := "x" }, { operator := some .between, group := some "g" }]
  sorting := [{ column := "	" }]
  params := [{ name := " ", kind := .enum }]

theorem halfTypedConfig_silent :
    (halfTypedConfig.IsIncomplete .joins 0 ∧ halfTypedConfig.IsIncomplete .fields 0) ∧
      ((halfTypedConfig.disable .joins 0).preview defaultHost).diagnostics =
        (halfTypedConfig.preview defaultHost).diagnostics ∧
      ((halfTypedConfig.disable .fields 0).preview defaultHost).diagnostics =
        (halfTypedConfig.preview defaultHost).diagnostics := by
  have hjoin : halfTypedConfig.IsIncomplete .joins 0 := ⟨_, rfl, by decide, by decide⟩
  have hfield : halfTypedConfig.IsIncomplete .fields 0 := ⟨_, rfl, by decide, by decide⟩
  refine ⟨⟨hjoin, hfield⟩, ?_, ?_⟩
  · exact (preview_disable_incomplete _ defaultHost .joins 0 hjoin).2.2.2.mpr nofun
  · apply (preview_disable_incomplete _ defaultHost .fields 0 hfield).2.2.2.mpr
    rintro - f ⟨⟩ name hname
    cases hname
    decide

/-- The second field is as empty as the first, but its name is not safe. -/
theorem unsafe_name_not_silent :
    halfTypedConfig.IsIncomplete .fields 1 ∧
      (halfTypedConfig.preview defaultHost).diagnostics =
        [⟨.entry .fields 1 .asName, .badName "bad name"⟩] ∧
      ((halfTypedConfig.disable .fields 1).preview defaultHost).diagnostics = [] := by
  refine ⟨⟨_, rfl, by decide, by decide⟩, by decide, by decide⟩

end EndpointPreview
