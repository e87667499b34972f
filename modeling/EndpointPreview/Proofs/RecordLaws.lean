import EndpointPreview.Json.Record
import EndpointPreview.Proofs.CodecLaws
import EndpointPreview.Proofs.JsonSkipping
/-!
Records are read back from all their surfaces: as objects with some of their keys, in any order and
among keys that are not known, and as lists with their first values. A record with all its keys is
one of these, so records of lawful codecs are lawful.
-/

namespace EndpointPreview.Json

variable {α ρ : Type} {levels : Nat} {s r : List Char}

/-- A record is filled in value by value, and `restricted keep` is the record in which the values at
the keys that are kept are in place. Reading this member keeps one key more. -/
def Member.Restores (member : Member ρ) (levels : Nat) (t : Spelling)
    (restricted : (String → Bool) → ρ) : Prop :=
  ∀ ⦃depth⦄ (keep : String → Bool), levels ≤ depth →
    (member.fill depth (restricted keep)).Reads t
      (restricted fun key => key == member.key || keep key)

theorem Codec.Reads.restores {codec : Codec α} {t : Spelling} {a : α} (h : codec.Reads levels t a)
    {key : String} {get : ρ → α} {set : α → ρ → ρ} {restricted : (String → Bool) → ρ}
    (hset : ∀ keep, set a (restricted keep) = restricted fun k => k == key || keep k) :
    (Member.of key codec get set).Restores levels t restricted := by
  intro depth keep hdepth
  have hread := (h hdepth).map (set · (restricted keep))
  rwa [hset] at hread

namespace Record

def known (members : List (Member ρ)) (keys : List String) : List String :=
  keys.filter (· ∈ members.map Member.key)

/-- A record may be written as an object with some of its keys in any order and with other keys
between them, or as a list with the first of its values. -/
inductive Surface (members : List (Member ρ))
  | object (keys : List String) (once : (known members keys).Nodup)
  | list (count : Nat)

namespace Surface

variable {members : List (Member ρ)}

def kept : Surface members → List String
  | .object keys _ => known members keys
  | .list count => (members.map Member.key).take count

def keeps (surface : Surface members) (key : String) : Bool :=
  key ∈ surface.kept

def spelling (values : List (String × Spelling)) : Surface members → Spelling
  | .object keys _ => .object (keys.map fun key => (key, (values.lookup key).getD .any))
  | .list count => .list ((values.take count).map Prod.snd)

end Surface

def Restores (members : List (Member ρ)) (levels : Nat) (values : List (String × Spelling))
    (restricted : (String → Bool) → ρ) : Prop :=
  List.Forall₂ (fun member v => member.key = v.1 ∧ member.Restores levels v.2 restricted)
    members values

def written (members : List (Member ρ)) (r : ρ) : List (String × Spelling) :=
  members.map fun m => (m.key, .json (m.write r))

variable {members : List (Member ρ)} {values : List (String × Spelling)}
  {restricted : (String → Bool) → ρ}

theorem Restores.lookup (h : Restores members levels values restricted) (key : String) :
    (key ∉ members.map Member.key ∧ members.find? (·.key == key) = none ∧
        values.lookup key = none) ∨
      ∃ member t, key = member.key ∧ members.find? (·.key == key) = some member ∧
        values.lookup key = some t ∧ member.Restores levels t restricted := by
  induction h with
  | nil => exact .inl ⟨List.not_mem_nil, rfl, rfl⟩
  | @cons member v members values hv _ ih =>
    obtain ⟨k, t⟩ := v
    obtain ⟨rfl, hrestores⟩ := hv
    by_cases hkey : member.key = key
    · refine .inr ⟨member, t, hkey.symm, ?_, ?_, hrestores⟩
      · exact List.find?_cons_of_pos (by simpa using hkey)
      · rw [List.lookup_cons, hkey, beq_self_eq_true]
    · have hfind : (member :: members).find? (·.key == key) = members.find? (·.key == key) :=
        List.find?_cons_of_neg (by simpa using hkey)
      have hlookup : ((member.key, t) :: values).lookup key = values.lookup key := by
        rw [List.lookup_cons, beq_false_of_ne (Ne.symm hkey)]
      rw [hfind, hlookup, List.map_cons, List.mem_cons, not_or]
      exact ih.imp_left fun ⟨hmem, hfound⟩ => ⟨⟨Ne.symm hkey, hmem⟩, hfound⟩

section

variable {depth : Nat} {given : List (String × Spelling)} {draft' : Draft ρ} {seen : List String}

theorem gathers_unknown {draft : Draft ρ} {key : String}
    (hfind : members.find? (·.key == key) = none)
    (hrest : Gathers (fillKey members depth) draft given draft') :
    Gathers (fillKey members depth) draft ((key, .any) :: given) draft' := by
  have hfill : fillKey members depth draft key = .ok (Reader.map (fun _ => draft) skip) := by
    rw [fillKey, hfind]
  exact .cons hfill (skip_reads_any.map _) hrest

theorem gathers_known {member : Member ρ} {t : Spelling} (hdepth : levels ≤ depth)
    (hfind : members.find? (·.key == member.key) = some member)
    (hrestores : member.Restores levels t restricted) (hunseen : member.key ∉ seen)
    (hrest : Gathers (fillKey members depth)
      ⟨restricted (· ∈ member.key :: seen), member.key :: seen⟩ given draft') :
    Gathers (fillKey members depth) ⟨restricted (· ∈ seen), seen⟩ ((member.key, t) :: given)
      draft' := by
  have hfill : fillKey members depth ⟨restricted (· ∈ seen), seen⟩ member.key =
      .ok (Reader.map (⟨·, member.key :: seen⟩) (member.fill depth (restricted (· ∈ seen)))) := by
    rw [fillKey, hfind]
    exact if_neg hunseen
  have hkeep : (fun key => key == member.key || decide (key ∈ seen)) =
      fun key => decide (key ∈ member.key :: seen) := by
    funext key
    rw [Bool.eq_iff_iff]
    simp
  refine .cons hfill ?_ hrest
  rw [← hkeep]
  exact (hrestores _ hdepth).map _

theorem gathers_fillKey (hdepth : levels ≤ depth)
    (h : Restores members levels values restricted) {keys : List String}
    (honce : (known members keys).Nodup) (hunseen : ∀ key ∈ known members keys, key ∉ seen) :
    ∃ seen', (∀ key, key ∈ seen' ↔ key ∈ known members keys ∨ key ∈ seen) ∧
      Gathers (fillKey members depth) ⟨restricted (· ∈ seen), seen⟩
        (keys.map fun key => (key, (values.lookup key).getD .any))
        ⟨restricted (· ∈ seen'), seen'⟩ := by
  -- On the keys: the record has the values at the known keys that have been seen.
  induction keys generalizing seen with
  | nil => exact ⟨seen, by simp [known], .nil⟩
  | cons key keys ih =>
    rcases h.lookup key with ⟨hmem, hfind, hlookup⟩ | ⟨member, t, rfl, hfind, hlookup, hrestores⟩
    · have hknown : known members (key :: keys) = known members keys :=
        List.filter_cons_of_neg (by simpa using hmem)
      rw [hknown] at honce hunseen ⊢
      obtain ⟨seen', hseen', hgathers⟩ := ih honce hunseen
      refine ⟨seen', hseen', ?_⟩
      rw [List.map_cons, hlookup]
      exact gathers_unknown hfind hgathers
    · have hmem : member.key ∈ members.map Member.key :=
        List.mem_map_of_mem (List.mem_of_find?_eq_some hfind)
      have hknown : known members (member.key :: keys) = member.key :: known members keys :=
        List.filter_cons_of_pos (by simpa using hmem)
      rw [hknown, List.nodup_cons] at honce
      rw [hknown, List.forall_mem_cons] at hunseen
      have hnext : ∀ key ∈ known members keys, key ∉ member.key :: seen := by
        intro key hkey hmem
        rcases List.mem_cons.mp hmem with rfl | hmem
        · exact honce.1 hkey
        · exact hunseen.2 key hkey hmem
      obtain ⟨seen', hseen', hgathers⟩ := ih honce.2 hnext
      refine ⟨seen', ?_, ?_⟩
      · intro key
        rw [hseen' key, hknown, List.mem_cons, List.mem_cons]
        tauto
      · rw [List.map_cons, hlookup]
        exact gathers_known hdepth hfind hrestores hunseen.1 hgathers

end

section

variable {depth : Nat} {member : Member ρ} {record record' record'' : ρ} {s₁ s₂ : List Char}

theorem run_fillInOrder_close (first : Bool) (members : List (Member ρ)) (hclose : Marks ']' s r) :
    (fillInOrder depth first record members).run s = .ok (record, r) := by
  cases members with
  | nil =>
    obtain ⟨r₁, hmark, hval⟩ := mark_of_marks hclose
    refine Reader.run_eq_ok.mpr ⟨r₁, ?_, hval⟩
    simp only [fillInOrder, hmark, bind, Except.bind]
    rfl
  | cons member members =>
    obtain ⟨hle, hs⟩ := skipSpacing_of_marks hclose
    refine Reader.run_eq_ok.mpr ⟨⟨r, hle⟩, ?_, rfl⟩
    simp only [fillInOrder, hs, ↓reduceIte]

theorem run_fillInOrder_next (hcomma : Marks ',' s s₁)
    (hfill : (member.fill depth record).run s₁ = .ok (record', s₂))
    (hrest : (fillInOrder depth false record' members).run s₂ = .ok (record'', r)) :
    (fillInOrder depth false record (member :: members)).run s = .ok (record'', r) := by
  obtain ⟨hle, hs⟩ := skipSpacing_of_marks hcomma
  obtain ⟨r₁, hread, rfl⟩ := Reader.run_eq_ok.mp hfill
  obtain ⟨r₂, hnext, hval⟩ := Reader.run_eq_ok.mp hrest
  refine Reader.run_eq_ok.mpr ⟨(Rest.and ⟨_, hle⟩ r₁).and r₂, ?_, hval⟩
  have hopen : ',' ≠ ']' := by decide
  simp only [fillInOrder, hs, if_neg hopen, Bool.false_eq_true, ↓reduceIte, hread, hnext, bind,
    Except.bind]
  rfl

theorem run_fillInOrder_first {c : Char} (hbegin : Marks c s s₁) (hne : c ≠ ']')
    (hfill : (member.fill depth record).run (c :: s₁) = .ok (record', s₂))
    (hrest : (fillInOrder depth false record' members).run s₂ = .ok (record'', r)) :
    (fillInOrder depth true record (member :: members)).run s = .ok (record'', r) := by
  obtain ⟨hle, hs⟩ := skipSpacing_of_marks hbegin
  obtain ⟨r₁, hread, rfl⟩ := Reader.run_eq_ok.mp hfill
  obtain ⟨r₂, hnext, hval⟩ := Reader.run_eq_ok.mp hrest
  refine Reader.run_eq_ok.mpr ⟨Tail.andRest ⟨_, hle⟩ (r₁.and r₂), ?_, hval⟩
  simp only [fillInOrder, hs, if_neg hne, ↓reduceIte, hread, hnext, bind, Except.bind]
  rfl

end

theorem keeps_take_cons (key : String) (keys : List String) (count : Nat) (keep : String → Bool) :
    (fun k => k ∈ keys.take count || (k == key || keep k)) =
      fun k => k ∈ (key :: keys).take (count + 1) || keep k := by
  funext k
  rw [Bool.eq_iff_iff]
  simp only [List.take_succ_cons, List.mem_cons, Bool.or_eq_true, decide_eq_true_eq, beq_iff_eq]
  tauto

theorem run_fillInOrder {depth : Nat} (hdepth : levels ≤ depth)
    (h : Restores members levels values restricted) (keep : String → Bool) (count : Nat)
    (hitems : SpelledItems ((values.take count).map Prod.snd) s r) :
    (fillInOrder depth false (restricted keep) members).run s =
      .ok (restricted fun key => key ∈ (members.map Member.key).take count || keep key, r) := by
  induction h generalizing keep count s with
  | nil =>
    rw [List.take_nil] at hitems
    cases hitems with | nil hclose => ?_
    simpa using run_fillInOrder_close false [] hclose
  | cons hv _ ih =>
    cases count with
    | zero =>
      cases hitems with | nil hclose => ?_
      simpa using run_fillInOrder_close false _ hclose
    | succ count =>
      cases hitems with | cons hcomma hitem hitems => ?_
      rw [List.map_cons, ← keeps_take_cons]
      exact run_fillInOrder_next hcomma (hv.2 keep hdepth hitem) (ih _ count hitems)

theorem run_fillInOrder_list {depth : Nat} (hdepth : levels ≤ depth)
    (h : Restores members levels values restricted) (count : Nat) {s₀ : List Char}
    (hopen : Marks '[' s₀ s) (hlist : SpelledList ((values.take count).map Prod.snd) s₀ r) :
    (fillInOrder depth true (restricted fun _ => false) members).run s =
      .ok (restricted (· ∈ (members.map Member.key).take count), r) := by
  cases h with
  | nil =>
    rw [List.take_nil] at hlist
    cases hlist with | nil hopen' hclose => ?_
    cases hopen.symm.trans hopen'
    simpa using run_fillInOrder_close true [] hclose
  | @cons member v members values hv h =>
    cases count with
    | zero =>
      cases hlist with | nil hopen' hclose => ?_
      cases hopen.symm.trans hopen'
      simpa using run_fillInOrder_close true _ hclose
    | succ count =>
      cases hlist with | cons hopen' hitem hitems => ?_
      cases hopen.symm.trans hopen'
      obtain ⟨c, t, hbegin, hne, hitem⟩ := v.2.begins hitem
      have hfirst := hv.2 (fun _ => false) hdepth hitem
      have hrest := run_fillInOrder hdepth h (fun key => key == member.key || false) count hitems
      rw [keeps_take_cons] at hrest
      simpa using run_fillInOrder_first hbegin hne hfirst hrest

end Record

namespace Codec

open Record

variable {name : String} {members : List (Member ρ)} {defaults : ρ}
  {values : List (String × Spelling)} {restricted : (String → Bool) → ρ}

theorem record_reads (h : Restores members levels values restricted)
    (hdefaults : restricted (fun _ => false) = defaults) (surface : Surface members) :
    (record name members defaults).Reads (levels + 1) (surface.spelling values)
      (restricted surface.keeps) := by
  intro depth hdepth s r ht
  obtain ⟨depth, rfl⟩ : ∃ d, depth = d + 1 := ⟨depth - 1, by omega⟩
  have hdepth := Nat.le_of_succ_le_succ hdepth
  subst hdefaults
  cases surface with
  | object keys once =>
    have ht : SpelledObject _ s r := ht
    obtain ⟨s₁, hopen⟩ := ht.exists_marks
    have hunseen : ∀ key ∈ known members keys, key ∉ ([] : List String) :=
      fun _ _ => List.not_mem_nil
    obtain ⟨seen, hseen, hgathers⟩ := gathers_fillKey hdepth h once hunseen
    have hkeeps : (fun key => decide (key ∈ seen)) = (Surface.object keys once).keeps := by
      funext key
      exact decide_eq_decide.mpr ((hseen key).trans (or_iff_left List.not_mem_nil))
    have hempty : (fun key : String => decide (key ∈ [])) = fun _ => false := by
      funext key
      exact decide_eq_false List.not_mem_nil
    rw [hkeeps, hempty] at hgathers
    obtain ⟨r₁, hhead, rfl⟩ := Reader.run_eq_ok.mp (head_object hopen)
    obtain ⟨r₂, hbody, hval⟩ := Reader.run_eq_ok.mp (run_objectBody hgathers hopen ht)
    refine Reader.run_eq_ok.mpr ⟨r₁.and r₂, ?_, hval⟩
    simp only [record, ofHead, hhead, hbody, bind, Except.bind, pure, Except.pure, ↓reduceIte]
  | list count =>
    have ht : SpelledList _ s r := ht
    obtain ⟨s₁, hopen⟩ := ht.exists_marks
    obtain ⟨r₁, hhead, rfl⟩ := Reader.run_eq_ok.mp (head_list hopen)
    obtain ⟨r₂, hbody, hval⟩ :=
      Reader.run_eq_ok.mp (run_fillInOrder_list hdepth h count hopen ht)
    refine Reader.run_eq_ok.mpr ⟨r₁.and r₂, ?_, hval⟩
    simp only [record, ofHead, hhead, hbody, bind, Except.bind, pure, Except.pure]
    rfl

theorem lookup_written (hkeys : (members.map Member.key).Nodup) (source : ρ) {member : Member ρ}
    (hmem : member ∈ members) :
    (written members source).lookup member.key = some (.json (member.write source)) := by
  induction members with
  | nil => cases hmem
  | cons m members ih =>
    rw [List.map_cons, List.nodup_cons] at hkeys
    rcases List.mem_cons.mp hmem with rfl | hmem
    · exact List.lookup_cons_self
    · have hne : member.key ≠ m.key := fun he => hkeys.1 (he ▸ List.mem_map_of_mem hmem)
      rw [written, List.map_cons, List.lookup_cons, beq_false_of_ne hne]
      exact ih hkeys.2 hmem

theorem record_lawful {restricted : ρ → (String → Bool) → ρ}
    (h : ∀ source, Restores members levels (written members source) (restricted source))
    (hkeys : (members.map Member.key).Nodup)
    (hdefaults : ∀ source, restricted source (fun _ => false) = defaults)
    (hall : ∀ source keep, (∀ key ∈ members.map Member.key, keep key = true) →
      restricted source keep = source) : (record name members defaults).Lawful (levels + 1) := by
  intro source depth hdepth s r hj
  let surface : Surface members := .object (members.map Member.key) (hkeys.filter _)
  have hkept : ∀ key ∈ members.map Member.key, surface.keeps key = true := fun key hkey =>
    decide_eq_true (List.mem_filter.mpr ⟨hkey, decide_eq_true hkey⟩)
  have hreads : (record name members defaults).Reads (levels + 1) _ _ :=
    record_reads (h source) (hdefaults source) surface
  rw [hall source _ hkept] at hreads
  have hvalues : (members.map Member.key).map (fun key =>
      (key, ((written members source).lookup key).getD .any)) = written members source := by
    rw [List.map_map]
    apply List.map_congr_left
    intro m hm
    rw [Function.comp_apply, lookup_written hkeys source hm, Option.getD_some]
  have hsurface : surface.spelling (written members source) = .object (written members source) :=
    congrArg Spelling.object hvalues
  rw [hsurface] at hreads
  have hspelled := spelledObject_of_spells hj
  rw [List.map_map] at hspelled
  exact hreads hdepth hspelled

end Codec

end EndpointPreview.Json
