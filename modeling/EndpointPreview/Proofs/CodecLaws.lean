import Mathlib.Data.List.Forall2
import EndpointPreview.Json.Codec
import EndpointPreview.Proofs.JsonReading
/-!
A codec is lawful when it reads back whatever it writes. Lists of lawful codecs are lawful, one level
of nesting deeper.
-/

namespace EndpointPreview.Json

variable {α : Type} {levels : Nat} {s r : List Char}

def Codec.Reads (codec : Codec α) (levels : Nat) (t : Spelling) (a : α) : Prop :=
  ∀ ⦃depth⦄, levels ≤ depth → (codec.read depth).Reads t a

def Codec.Lawful (codec : Codec α) (levels : Nat) : Prop :=
  ∀ a, codec.Reads levels (.json (codec.write a)) a

namespace Codec

theorem Reads.mono {codec : Codec α} {levels' : Nat} {t : Spelling} {a : α}
    (h : codec.Reads levels t a) (hle : levels ≤ levels') : codec.Reads levels' t a :=
  fun _ hdepth => h (Nat.le_trans hle hdepth)

theorem Lawful.mono {codec : Codec α} {levels' : Nat} (h : codec.Lawful levels)
    (hle : levels ≤ levels') : codec.Lawful levels' :=
  fun a => (h a).mono hle

theorem run_ofHead {expected : String} {take : Found → Option α} {found : Found} {a : α}
    (hhead : head.run s = .ok (found, r)) (htake : take found = some a) :
    (ofHead expected take).run s = .ok (a, r) := by
  obtain ⟨r₁, hhead, hval⟩ := Reader.run_eq_ok.mp hhead
  refine Reader.run_eq_ok.mpr ⟨r₁, ?_, hval⟩
  simp only [ofHead, hhead, htake, bind, Except.bind]
  rfl

theorem head_null (h : Spells .null s r) : head.run s = .ok (.null, r) := by
  cases h with | null h => exact head_word (.head _) h

theorem head_bool {b : Bool} (h : Spells (.bool b) s r) : head.run s = .ok (.bool b, r) := by
  cases h with
  | yes h => exact head_word (.tail _ (.head _)) h
  | no h => exact head_word (.tail _ (.tail _ (.head _))) h

theorem text_lawful : text.Lawful levels := by
  intro t depth _ s r h
  cases h with | text h => ?_
  simp only [text]
  exact run_ofHead (head_text h) rfl

theorem flag_lawful : flag.Lawful levels := by
  intro b depth _ s r h
  simp only [flag]
  exact run_ofHead (head_bool h) rfl

theorem optionalText_lawful : optionalText.Lawful levels := by
  intro o depth _ s r h
  simp only [optionalText]
  cases o with
  | none => exact run_ofHead (head_null h) rfl
  | some t =>
    cases h with | text h => exact run_ofHead (head_text h) rfl

theorem wordOf?_toNat (n : UInt32) : wordOf? n.toNat = .ok n := by
  rw [wordOf?, if_pos ⟨Int.natCast_nonneg _, Int.ofNat_lt.mpr n.toNat_lt_size⟩, Int.toNat_natCast,
    UInt32.ofNat_toNat]

theorem isInteger_toNat (n : UInt32) : isInteger n.toNat false = true := by
  have hlow : 0 ≤ Int.pow 2 63 := by decide
  have hhigh : (2 ^ 32 : Nat) ≤ Int.pow 2 64 := by decide
  have hn := n.toNat_lt
  simp only [isInteger, Bool.false_and, Bool.not_false, Bool.and_true, Bool.and_eq_true,
    decide_eq_true_eq]
  omega

theorem head_ofNat (n : UInt32) (h : Spells (.ofNat n.toNat) s r) :
    head.run s = .ok (.number (.integer n.toNat), r) := by
  rw [ofNat] at h
  cases h with | number h => exact head_number (isInteger_toNat n) h

theorem read_count {n : Int} {w : UInt32} {rest : Rest s}
    (hhead : head s = .ok (.number (.integer n), rest)) (hword : wordOf? n = .ok w) (depth : Nat) :
    count.read depth s = .ok (w, rest) := by
  simp only [count, ofHead, hhead, hword, bind, Except.bind, pure, Except.pure]

theorem read_optionalCount {n : Int} {w : UInt32} {rest : Rest s}
    (hhead : head s = .ok (.number (.integer n), rest)) (hword : wordOf? n = .ok w) (depth : Nat) :
    optionalCount.read depth s = .ok (some w, rest) := by
  simp only [optionalCount, ofHead, hhead, hword, bind, Except.bind, pure, Except.pure]

theorem count_lawful : count.Lawful levels := by
  intro n depth _ s r h
  obtain ⟨rest, hhead, hval⟩ := Reader.run_eq_ok.mp (head_ofNat n h)
  exact Reader.run_eq_ok.mpr ⟨rest, read_count hhead (wordOf?_toNat n) depth, hval⟩

theorem optionalCount_lawful : optionalCount.Lawful levels := by
  intro o depth _ s r h
  cases o with
  | none =>
    obtain ⟨rest, hhead, hval⟩ := Reader.run_eq_ok.mp (head_null h)
    refine Reader.run_eq_ok.mpr ⟨rest, ?_, hval⟩
    simp only [optionalCount, ofHead, hhead, bind, Except.bind, pure, Except.pure]
  | some n =>
    obtain ⟨rest, hhead, hval⟩ := Reader.run_eq_ok.mp (head_ofNat n h)
    exact Reader.run_eq_ok.mpr ⟨rest, read_optionalCount hhead (wordOf?_toNat n) depth, hval⟩

theorem value_text {t : String} (depth : Nat) (h : Spells (.text t) s r) :
    (value depth).run s = .ok (.text t, r) := by
  cases h with | text h => ?_
  obtain ⟨r₁, hhead, hval⟩ := Reader.run_eq_ok.mp (head_text h)
  refine Reader.run_eq_ok.mpr ⟨r₁, ?_, hval⟩
  unfold value
  simp only [hhead, bind, Except.bind]
  rfl

theorem value_null (depth : Nat) (h : Spells .null s r) :
    (value depth).run s = .ok (.null, r) := by
  obtain ⟨r₁, hhead, hval⟩ := Reader.run_eq_ok.mp (head_null h)
  refine Reader.run_eq_ok.mpr ⟨r₁, ?_, hval⟩
  unfold value
  simp only [hhead, bind, Except.bind]
  rfl

theorem loose_lawful : loose.Lawful levels := by
  intro t depth _ s r h
  exact Reader.run_map (value_text depth h) looseText

theorem optionalLoose_lawful : optionalLoose.Lawful levels := by
  intro o depth _ s r h
  simp only [optionalLoose]
  cases o with
  | none => rw [Reader.run_map (value_null depth h)]
  | some t => rw [Reader.run_map (value_text depth h)]; rfl

theorem list_reads {item : Codec α} {ts : List Spelling} {as : List α}
    (h : List.Forall₂ (item.Reads levels) ts as) : (list item).Reads (levels + 1) (.list ts) as := by
  intro depth hdepth s r hlist
  obtain ⟨depth, rfl⟩ : ∃ d, depth = d + 1 := ⟨depth - 1, by omega⟩
  have hread : List.Forall₂ (item.read depth).Reads ts as :=
    h.imp fun _ _ hitem => hitem (Nat.le_of_succ_le_succ hdepth)
  obtain ⟨s₁, hopen⟩ := hlist.exists_marks
  obtain ⟨r₁, hhead, rfl⟩ := Reader.run_eq_ok.mp (head_list hopen)
  obtain ⟨r₂, hbody, hval⟩ := Reader.run_eq_ok.mp (run_listBody hread hopen hlist)
  refine Reader.run_eq_ok.mpr ⟨r₁.and r₂, ?_, hval⟩
  simp only [list, ofHead, hhead, hbody, bind, Except.bind, pure, Except.pure]

theorem list_lawful {item : Codec α} (hitem : item.Lawful levels) :
    (list item).Lawful (levels + 1) := by
  intro as depth hdepth s r h
  have hreads : List.Forall₂ (item.Reads levels) ((as.map item.write).map Spelling.json) as := by
    rw [List.map_map, List.forall₂_map_left_iff]
    exact List.forall₂_same.mpr fun a _ => hitem a
  exact list_reads hreads hdepth (spelledList_of_spells h)

theorem wordFor?_lookup {spellings : List (String × α)} {w : String} {a : α}
    (h : spellings.lookup w = some a) : wordFor? spellings w = .ok a := by
  rw [wordFor?, h]

theorem vocabulary_lawful {spellings : List (String × α)} {name : α → String}
    (hname : ∀ a, spellings.lookup (name a) = some a) : (vocabulary spellings name).Lawful levels := by
  intro a depth _ s r h
  simp only [vocabulary] at h ⊢
  cases h with | text h => ?_
  obtain ⟨hle, hs⟩ := skipSpacing_of_marks h
  obtain ⟨r₁, hword, hval⟩ := Reader.run_eq_ok.mp (run_keptText (name a) r)
  refine Reader.run_eq_ok.mpr ⟨Rest.and ⟨_, hle⟩ r₁, ?_, hval⟩
  simp only [hs, hword, wordFor?_lookup (hname a), bind, Except.bind]
  rfl

end Codec

theorem Codec.Reads.decode {codec : Codec α} {t : Spelling} {a : α} (h : codec.Reads levels t a)
    (hlevels : levels ≤ greatestDepth) {text : String} (htext : t.Writes text) :
    codec.decode text = .ok a := by
  obtain ⟨r, ht, hr⟩ := htext
  obtain ⟨rest, hread, rfl⟩ := Reader.run_eq_ok.mp (h hlevels ht)
  have hend : (skipSpacing rest.val).val = [] := hr
  simp only [Codec.decode, hread, bind, Except.bind, if_pos hend]
  rfl

theorem Codec.Lawful.reads_back {codec : Codec α} (h : codec.Lawful levels)
    (hlevels : levels ≤ greatestDepth) (a : α) :
    codec.decode (codec.encode a) = .ok a ∧ codec.decode (codec.write a).pretty = .ok a := by
  have hnil : EndsNumber [] := nofun
  have hcompact := spells_chars (codec.write a) hnil
  have hpretty := spells_laidOut 0 (codec.write a) hnil
  rw [List.append_nil, ← String.toList_ofList (l := chars _)] at hcompact
  rw [List.append_nil, ← String.toList_ofList (l := laidOut _ _)] at hpretty
  exact ⟨(h a).decode hlevels ⟨[], hcompact, rfl⟩, (h a).decode hlevels ⟨[], hpretty, rfl⟩⟩

theorem Codec.optionalWord_lawful {word : Codec α} (h : word.Lawful 0)
    (hword : ∀ a, ∃ w, word.write a = .text w ∧ Text.blank w = false) :
    (optionalWord word).Lawful levels := by
  intro o depth hdepth s r hs
  simp only [optionalWord] at hs ⊢
  cases o with
  | none =>
    obtain ⟨r₁, hread, hval⟩ := Reader.run_eq_ok.mp (optionalText_lawful none hdepth hs)
    refine Reader.run_eq_ok.mpr ⟨r₁, ?_, hval⟩
    simp only [hread, bind, Except.bind]
    rfl
  | some a =>
    obtain ⟨w, hwrite, hblank⟩ := hword a
    have hdecode : word.decode (Json.text w).compact = .ok a := by
      rw [← hwrite]
      exact (h.reads_back (Nat.zero_le _) a).1
    have htext : Spells (.text w) s r := hwrite ▸ hs
    obtain ⟨r₁, hread, hval⟩ := Reader.run_eq_ok.mp (optionalText_lawful (some w) hdepth htext)
    refine Reader.run_eq_ok.mpr ⟨r₁, ?_, hval⟩
    simp only [hread, hblank, hdecode, bind, Except.bind]
    rfl

end EndpointPreview.Json
