import EndpointPreview.Proofs.ConfigCodec
/-!
Configurations of which a text holds only some values. Wherever a record stands, at the root, in the
pagination or in a list, it may be an object with some of its keys, in any order and among keys that
are not known, or a list with its first values; what is not there takes its default.
-/

namespace EndpointPreview

open Json Json.Codec Json.Record

namespace Config

/-- The surface of each record of a configuration; entries are counted in their lists. -/
structure Layout where
  root : Surface members
  pagination : Surface Pagination.members
  joins : Nat → Surface Join.members
  fields : Nat → Surface Field.members
  filters : Nat → Surface Filter.members
  sorting : Nat → Surface SortKey.members
  params : Nat → Surface Param.members

namespace Layout

variable (layout : Layout) (c : Config)

def inner : Inner where
  joins := .list (c.joins.mapIdx fun i j => (layout.joins i).spelling (written Join.members j))
  fields := .list (c.fields.mapIdx fun i f => (layout.fields i).spelling (written Field.members f))
  filters :=
    .list (c.filters.mapIdx fun i f => (layout.filters i).spelling (written Filter.members f))
  sorting :=
    .list (c.sorting.mapIdx fun i s => (layout.sorting i).spelling (written SortKey.members s))
  pagination := layout.pagination.spelling (written Pagination.members c.pagination)
  params := .list (c.params.mapIdx fun i p => (layout.params i).spelling (written Param.members p))

def spelling : Spelling :=
  layout.root.spelling ((layout.inner c).values c)

def restrictInner : Config :=
  { c with
    joins := c.joins.mapIdx fun i j => j.restrict (layout.joins i).keeps
    fields := c.fields.mapIdx fun i f => f.restrict (layout.fields i).keeps
    filters := c.filters.mapIdx fun i f => f.restrict (layout.filters i).keeps
    sorting := c.sorting.mapIdx fun i s => s.restrict (layout.sorting i).keeps
    pagination := c.pagination.restrict layout.pagination.keeps
    params := c.params.mapIdx fun i p => p.restrict (layout.params i).keeps }

def restrict : Config :=
  (layout.restrictInner c).restrict layout.root.keeps

end Layout

theorem list_reads_mapIdx {α : Type} {item : Codec α} {levels : Nat} {f : Nat → α → Spelling}
    {g : Nat → α → α} (h : ∀ i a, item.Reads levels (f i a) (g i a)) (as : List α) :
    (list item).Reads (levels + 1) (.list (as.mapIdx f)) (as.mapIdx g) := by
  apply list_reads
  rw [List.forall₂_iff_get]
  refine ⟨by simp, ?_⟩
  intro i hi hi'
  simpa using h i _

theorem Join.reads (j : Join) (surface : Surface Join.members) :
    Join.codec.Reads 1 (surface.spelling (written Join.members j)) (j.restrict surface.keeps) :=
  record_reads j.restores rfl surface

theorem Field.reads (f : Field) (surface : Surface Field.members) :
    Field.codec.Reads 1 (surface.spelling (written Field.members f)) (f.restrict surface.keeps) :=
  record_reads f.restores rfl surface

theorem Filter.reads (f : Filter) (surface : Surface Filter.members) :
    Filter.codec.Reads 1 (surface.spelling (written Filter.members f)) (f.restrict surface.keeps) :=
  record_reads f.restores rfl surface

theorem SortKey.reads (s : SortKey) (surface : Surface SortKey.members) :
    SortKey.codec.Reads 1 (surface.spelling (written SortKey.members s))
      (s.restrict surface.keeps) :=
  record_reads s.restores rfl surface

theorem Param.reads (p : Param) (surface : Surface Param.members) :
    Param.codec.Reads 2 (surface.spelling (written Param.members p)) (p.restrict surface.keeps) :=
  record_reads p.restores rfl surface

theorem Pagination.reads (p : Pagination) (surface : Surface Pagination.members) :
    Pagination.codec.Reads 1 (surface.spelling (written Pagination.members p))
      (p.restrict surface.keeps) :=
  record_reads p.restores rfl surface

theorem Layout.inner_reads (layout : Layout) (c : Config) :
    (layout.inner c).Reads (layout.restrictInner c) where
  joins := list_reads_mapIdx (fun i j => (j.reads (layout.joins i)).mono (by decide)) c.joins
  fields := list_reads_mapIdx (fun i f => (f.reads (layout.fields i)).mono (by decide)) c.fields
  filters := list_reads_mapIdx (fun i f => (f.reads (layout.filters i)).mono (by decide)) c.filters
  sorting := list_reads_mapIdx (fun i s => (s.reads (layout.sorting i)).mono (by decide)) c.sorting
  pagination := (c.pagination.reads layout.pagination).mono (by decide)
  params := list_reads_mapIdx (fun i p => p.reads (layout.params i)) c.params

/-- Every text of a configuration in a layout is decoded, and to what the layout keeps of it. -/
theorem decode_partial (layout : Layout) (c : Config) (text : String)
    (htext : (layout.spelling c).Writes text) : codec.decode text = .ok (layout.restrict c) := by
  have hreads : codec.Reads 4 (layout.spelling c) (layout.restrict c) :=
    record_reads (layout.inner_reads c).restores rfl layout.root
  exact hreads.decode (by decide) htext

def partialConfig : Config where
  name := some "n"
  path := "/x"
  filters := [{ column := "a", operator := some .gte, value := "1" },
    { column := "b", enabled := false }]
  pagination := { enabled := true, defaultLimit := 7, maxLimit := 50 }

def partialLayout : Layout where
  root := .object ["x", "filters", "pagination", "path", "x"] (by decide)
  pagination := .list 2
  joins _ := .list 0
  fields _ := .list 0
  filters
    | 0 => .list 2
    | _ => .object ["y", "enabled"] (by decide)
  sorting _ := .list 0
  params _ := .list 0

def partialText : String :=
  "\x7b\"x\":[-1e999,\"\\ud800\"],\"filters\":[[\"a\",\"gte\"],\x7b\"y\":\x7b\x7d,\"enabled\":false\x7d], \"pagination\":[true,7],\"path\":\"/x\",\"x\":null\x7d"

theorem partialText_toList : partialText.toList = [
    '\x7b', '"', 'x', '"', ':', '[', '-', '1', 'e', '9', '9', '9', ',', '"', '\\', 'u', 'd',
    '8', '0', '0', '"', ']', ',', '"', 'f', 'i', 'l', 't', 'e', 'r', 's', '"', ':', '[', '[',
    '"', 'a', '"', ',', '"', 'g', 't', 'e', '"', ']', ',', '\x7b', '"', 'y', '"', ':', '\x7b',
    '\x7d', ',', '"', 'e', 'n', 'a', 'b', 'l', 'e', 'd', '"', ':', 'f', 'a', 'l', 's', 'e',
    '\x7d', ']', ',', ' ', '"', 'p', 'a', 'g', 'i', 'n', 'a', 't', 'i', 'o', 'n', '"', ':', '[',
    't', 'r', 'u', 'e', ',', '7', ']', ',', '"', 'p', 'a', 't', 'h', '"', ':', '"', '/', 'x',
    '"', ',', '"', 'x', '"', ':', 'n', 'u', 'l', 'l', '\x7d'] := by
  rfl

theorem partialText_written : (partialLayout.spelling partialConfig).Writes partialText := by
  have hone : AreDigits ['1'] := ⟨by decide, List.all_eq_true.mp (by decide)⟩
  have hnines : AreDigits ['9', '9', '9'] := ⟨by decide, List.all_eq_true.mp (by decide)⟩
  have hlarge : IsNumber ['-', '1', 'e', '9', '9', '9'] :=
    .mk (.tail _ (.head _)) hone (by decide) .absent (.present (.inl rfl) (.head _) hnines)
  have hlist (r : List Char) : AnyValue ('[' :: '-' :: '1' :: 'e' :: '9' :: '9' :: '9' :: ',' ::
      '"' :: '\\' :: 'u' :: 'd' :: '8' :: '0' :: '0' :: '"' :: ']' :: r) r :=
    .list rfl <| .cons (.number hlarge rfl (endsNumber_cons (by decide) _)) rfl <|
      .last (.text rfl (.unicode (by decide) .nil)) rfl
  have hempty (r : List Char) : AnyValue ('\x7b' :: '\x7d' :: r) r := .emptyObject rfl rfl
  have hnull (r : List Char) : AnyValue ('n' :: 'u' :: 'l' :: 'l' :: r) r := .word (.head _) rfl
  have hfilter (r : List Char) : (Spelling.list [.json (.text "a"), .json (.text "gte")]).spells
      ('[' :: '"' :: 'a' :: '"' :: ',' :: '"' :: 'g' :: 't' :: 'e' :: '"' :: ']' :: r) r :=
    SpelledList.cons rfl (Spells.text rfl) (.cons rfl (Spells.text rfl) (.nil rfl))
  have hobject (r : List Char) :
      (Spelling.object [("y", .any), ("enabled", .json (.bool false))]).spells
      ('\x7b' :: '"' :: 'y' :: '"' :: ':' :: '\x7b' :: '\x7d' :: ',' :: '"' :: 'e' :: 'n' :: 'a' ::
        'b' :: 'l' :: 'e' :: 'd' :: '"' :: ':' :: 'f' :: 'a' :: 'l' :: 's' :: 'e' :: '\x7d' :: r) r :=
    SpelledObject.cons rfl rfl rfl (hempty _) (.cons rfl rfl rfl (Spells.no rfl) (.nil rfl))
  have hpagination (r : List Char) : (Spelling.list [.json (.bool true), .json (.ofNat 7)]).spells
      ('[' :: 't' :: 'r' :: 'u' :: 'e' :: ',' :: '7' :: ']' :: r) r :=
    SpelledList.cons rfl (Spells.yes rfl)
      (.cons rfl (Spells.number ⟨rfl, endsNumber_cons (by decide) _⟩) (.nil rfl))
  refine ⟨[], ?_, rfl⟩
  rw [partialText_toList]
  exact SpelledObject.cons rfl rfl rfl (hlist _) <|
    .cons rfl rfl rfl (SpelledList.cons rfl (hfilter _) (.cons rfl (hobject _) (.nil rfl))) <|
    .cons rfl rfl rfl (hpagination _) <|
    .cons rfl rfl rfl (Spells.text rfl) <|
    .cons rfl rfl rfl (hnull _) <| .nil rfl

theorem decode_partialText :
    (partialLayout.spelling partialConfig).Writes partialText ∧
      codec.decode partialText = .ok {
        path := "/x"
        filters := [{ column := "a", operator := some .gte }, { enabled := false }]
        pagination := { enabled := true, defaultLimit := 7, maxLimit := 100 } } :=
  ⟨partialText_written, decode_partial partialLayout partialConfig partialText partialText_written⟩

end Config

end EndpointPreview
