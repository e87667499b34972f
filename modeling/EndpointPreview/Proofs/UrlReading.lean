import EndpointPreview.Number.Digits
import EndpointPreview.Proofs.QueryText
/-!
The example URL can be read back. No key and no encoded value holds a mark of the query, so cutting
at the marks and decoding the values gives the pairs that were written.
-/

namespace EndpointPreview

namespace Text

def hexByte? (high low : Char) : Option UInt8 := do
  return UInt8.ofNat (16 * (← digitValue? high) + (← digitValue? low))

/-- The bytes of a text in which a percent sign and two hexadecimal digits stand for a byte and
every other character for its UTF-8 bytes. -/
def percentBytes? : List Char → Option (List UInt8)
  | [] => some []
  | '%' :: high :: low :: cs => do
    let b ← hexByte? high low
    return b :: (← percentBytes? cs)
  | c :: cs => if c = '%' then none else (percentBytes? cs).map (String.utf8EncodeChar c ++ ·)

def percentDecode? (cs : List Char) : Option String := do
  String.fromUTF8? (← percentBytes? cs).toByteArray

theorem hexByte?_capitalHexDigit (b : UInt8) :
    hexByte? (capitalHexDigit (b.toNat / 16)) (capitalHexDigit b.toNat) = some b := by
  have hdigit : ∀ n < 16, digitValue? (capitalHexDigit n) = some n := by decide
  have hlow : capitalHexDigit b.toNat = capitalHexDigit (b.toNat % 16) := by
    simp only [capitalHexDigit, Nat.mod_mod]
  have hb : b.toNat < 256 := b.toNat_lt
  have hsum : 16 * (b.toNat / 16) + b.toNat % 16 = b.toNat := Nat.div_add_mod _ _
  rw [hlow, hexByte?, hdigit _ (by omega), hdigit _ (by omega)]
  change some (UInt8.ofNat (16 * (b.toNat / 16) + b.toNat % 16)) = some b
  rw [hsum, UInt8.ofNat_toNat]

theorem percentBytes?_percentByte (bytes : List UInt8) (rest : List Char) :
    percentBytes? (bytes.flatMap percentByte ++ rest) = (percentBytes? rest).map (bytes ++ ·) := by
  induction bytes with
  | nil => simp
  | cons b bytes ih =>
    rw [List.flatMap_cons, List.append_assoc, percentByte]
    simp only [List.cons_append, List.nil_append, percentBytes?, hexByte?_capitalHexDigit, ih]
    cases percentBytes? rest <;> rfl

theorem percentBytes?_cons {c : Char} (h : c ≠ '%') (rest : List Char) :
    percentBytes? (c :: rest) = (percentBytes? rest).map (String.utf8EncodeChar c ++ ·) := by
  rw [percentBytes?, if_neg h]
  rintro high low cs rfl
  exact absurd rfl h

theorem percentBytes?_percentEncode (c : Char) (rest : List Char) :
    percentBytes? (percentEncode c ++ rest) =
      (percentBytes? rest).map (String.utf8EncodeChar c ++ ·) := by
  unfold percentEncode
  split
  · next h =>
    apply percentBytes?_cons
    rintro rfl
    exact absurd h (by decide)
  · exact percentBytes?_percentByte _ _

theorem mem_percentEncode {c d : Char} (h : d ∈ percentEncode c) :
    isUnreserved d = true ∨ d = '%' := by
  have hdigit : ∀ n, isUnreserved (capitalHexDigit n) = true := by
    intro n
    have hall : ∀ n < 16, isUnreserved (Nat.digitChar n).toUpper = true := by decide
    exact hall _ (Nat.mod_lt n (by decide))
  unfold percentEncode at h
  split at h
  · next hc =>
    rw [List.mem_singleton.mp h]
    exact .inl hc
  · obtain ⟨b, -, h⟩ := List.mem_flatMap.mp h
    simp only [percentByte, List.mem_cons, List.not_mem_nil, or_false] at h
    rcases h with rfl | rfl | rfl
    · exact .inr rfl
    · exact .inl (hdigit _)
    · exact .inl (hdigit _)

theorem mem_of_mem_trim {s : String} {c : Char} (h : c ∈ (trim s).toList) : c ∈ s.toList := by
  rw [toList_trim, trimChars_eq_rdropWhile] at h
  exact (List.dropWhile_suffix _).subset ((List.rdropWhile_prefix _ _).subset h)

end Text

namespace Endpoint

def isKeyChar (c : Char) : Bool :=
  isNameRest c || c ∈ ['.', '[', ']']

def isEncodedChar (c : Char) : Bool :=
  Text.isUnreserved c || c ∈ ['%', ',']

def encodeChar (c : Char) : List Char :=
  if c = ',' then [c] else Text.percentEncode c

theorem toList_encodeValue (s : String) : (encodeValue s).toList = s.toList.flatMap encodeChar :=
  String.toList_ofList

theorem percentBytes?_encodeChar (c : Char) (rest : List Char) :
    Text.percentBytes? (encodeChar c ++ rest) =
      (Text.percentBytes? rest).map (String.utf8EncodeChar c ++ ·) := by
  unfold encodeChar
  split
  · next hc =>
    rw [List.singleton_append, Text.percentBytes?_cons (by rw [hc]; decide)]
  · exact Text.percentBytes?_percentEncode c rest

theorem percentBytes?_flatMap_encodeChar (cs : List Char) :
    Text.percentBytes? (cs.flatMap encodeChar) = some (cs.flatMap String.utf8EncodeChar) := by
  induction cs with
  | nil => rfl
  | cons c cs ih =>
    rw [List.flatMap_cons, percentBytes?_encodeChar, ih]
    rfl

theorem percentDecode?_flatMap_encodeChar (cs : List Char) :
    Text.percentDecode? (cs.flatMap encodeChar) = some (String.ofList cs) := by
  have hvalid : String.fromUTF8? (String.ofList cs).toByteArray = some (String.ofList cs) := by
    rw [String.fromUTF8?, dif_pos (String.ofList cs).isValidUTF8]
    rfl
  have hutf8 : (cs.flatMap String.utf8EncodeChar).toByteArray = (String.ofList cs).toByteArray := by
    rw [String.toByteArray_ofList]
    rfl
  rw [Text.percentDecode?, percentBytes?_flatMap_encodeChar, ← hvalid, ← hutf8]
  rfl

theorem percentDecode?_encodeValue (s : String) :
    Text.percentDecode? (encodeValue s).toList = some s := by
  rw [toList_encodeValue, percentDecode?_flatMap_encodeChar, String.ofList_toList]

theorem isEncodedChar_of_mem {s : String} {c : Char} (h : c ∈ (encodeValue s).toList) :
    isEncodedChar c = true := by
  rw [toList_encodeValue] at h
  obtain ⟨d, -, h⟩ := List.mem_flatMap.mp h
  unfold encodeChar at h
  split at h
  · next hd =>
    rw [List.mem_singleton.mp h, hd]
    decide
  · rcases Text.mem_percentEncode h with h | rfl
    · rw [isEncodedChar, h, Bool.true_or]
    · decide

theorem isKeyChar_of_column {column : ColumnRef} {c : Char} (h : c ∈ column.text.toList) :
    isKeyChar c = true := by
  rcases column.mem_text h with h | rfl
  · rw [isKeyChar, h, Bool.true_or]
  · decide

theorem isKeyChar_of_comparison {comparison : Comparison} {c : Char}
    (h : c ∈ comparison.pair.1.toList) : isKeyChar c = true := by
  have hname : ∀ c ∈ comparison.operator.name.toList, isKeyChar c = true :=
    List.all_eq_true.mp (by cases comparison.operator <;> decide)
  unfold Comparison.pair at h
  dsimp only at h
  split at h
  · exact isKeyChar_of_column h
  · simp only [String.toList_append, List.mem_append] at h
    rcases h with ((h | h) | h) | h
    · exact isKeyChar_of_column h
    · rw [List.mem_singleton.mp h]
      decide
    · exact hname c h
    · rw [List.mem_singleton.mp h]
      decide

theorem isKeyChar_of_mem {e : Endpoint} (hparams : ∀ p ∈ e.params, isIdentifier p.name = true)
    {pair : String × String} (hpair : pair ∈ e.pairs) {c : Char} (hc : c ∈ pair.1.toList) :
    isKeyChar c = true := by
  have hfixed : pair.1 ∈ ["page", "limit", "sort", "order", "fields"] → isKeyChar c = true := by
    have hall : ∀ key ∈ ["page", "limit", "sort", "order", "fields"],
        key.toList.all isKeyChar = true := by decide
    exact fun h => List.all_eq_true.mp (hall _ h) c hc
  simp only [pairs, List.mem_append, List.mem_map, Option.mem_toList] at hpair
  rcases hpair with ((((⟨p, hp, rfl⟩ | h) | h) | h) | h) | h
  · rw [isKeyChar, isNameRest_of_mem (hparams p hp) hc, Bool.true_or]
  · apply hfixed
    split at h
    · simp_all
    · cases h
  · apply hfixed
    split at h
    · simp_all
    · cases h
  · apply hfixed
    split at h
    · simp only [List.mem_cons, List.not_mem_nil, or_false] at h
      rcases h with rfl | rfl <;> decide
    · cases h
  · apply hfixed
    unfold fieldsPair at h
    dsimp only at h
    split at h
    · cases h
      exact List.mem_of_getElem? (i := 4) rfl
    · cases h
  · obtain ⟨comparison, -, rfl⟩ := Option.map_eq_some_iff.mp h
    exact isKeyChar_of_comparison hc

def pair? (piece : List Char) : Option (String × String) :=
  match piece.dropWhile (· ≠ '=') with
  | [] => none
  | _ :: value => do
    return (String.ofList (piece.takeWhile (· ≠ '=')), ← Text.percentDecode? value)

def pairsOf? (url : String) : Option (List (String × String)) :=
  match url.toList.dropWhile (· ≠ '?') with
  | [] => some []
  | _ :: query => (query.splitOn '&').mapM pair?

def pieceOf (pair : String × String) : List Char :=
  pair.1.toList ++ '=' :: (encodeValue pair.2).toList

theorem pair?_pieceOf {pair : String × String} (h : ∀ c ∈ pair.1.toList, isKeyChar c = true) :
    pair? (pieceOf pair) = some pair := by
  have hkey : ∀ c ∈ pair.1.toList, decide (c ≠ '=') = true := by
    intro c hc
    rw [decide_eq_true_eq]
    rintro rfl
    exact absurd (h _ hc) (by decide)
  rw [pair?, pieceOf, List.dropWhile_append_of_pos hkey, List.takeWhile_append_of_pos hkey]
  simp [percentDecode?_encodeValue]

theorem mapM_pieces {pairs : List (String × String)}
    (h : ∀ pair ∈ pairs, ∀ c ∈ pair.1.toList, isKeyChar c = true) :
    (pairs.map pieceOf).mapM pair? = some pairs := by
  induction pairs with
  | nil => rfl
  | cons pair pairs ih =>
    rw [List.forall_mem_cons] at h
    rw [List.map_cons, List.mapM_cons, pair?_pieceOf h.1, ih h.2]
    rfl

theorem mark_not_mem_pieceOf {pair : String × String}
    (h : ∀ c ∈ pair.1.toList, isKeyChar c = true) {mark : Char}
    (hmark : mark ∈ ['&', '?', '#']) : mark ∉ pieceOf pair := by
  have hkey : isKeyChar mark = false ∧ isEncodedChar mark = false ∧ mark ≠ '=' := by
    simp only [List.mem_cons, List.not_mem_nil, or_false] at hmark
    rcases hmark with rfl | rfl | rfl <;> decide
  intro hmem
  simp only [pieceOf, List.mem_append, List.mem_cons] at hmem
  rcases hmem with hmem | hmem | hmem
  · exact absurd (h _ hmem) (by rw [hkey.1]; decide)
  · exact hkey.2.2 hmem
  · exact absurd (isEncodedChar_of_mem hmem) (by rw [hkey.2.1]; decide)

theorem toList_piece (key value : String) :
    (key ++ "=" ++ encodeValue value).toList = pieceOf (key, value) := by
  simp [pieceOf]

theorem toList_queryText {e : Endpoint} (h : e.pairs ≠ []) :
    e.queryText.toList = '?' :: ['&'].intercalate (e.pairs.map pieceOf) := by
  have hpieces : (e.pairs.map fun pair => pair.1 ++ "=" ++ encodeValue pair.2).map String.toList =
      e.pairs.map pieceOf := by
    rw [List.map_map]
    exact List.map_congr_left fun pair _ => toList_piece pair.1 pair.2
  rw [queryText, if_neg h, String.toList_append, String.toList_intercalate]
  exact congrArg (fun pieces => '?' :: ['&'].intercalate pieces) hpieces

theorem toList_url (e : Endpoint) (host : String) : (e.url host).toList =
    ("https://api." ++ host ++ "/api" ++ e.route).toList ++ e.queryText.toList := by
  unfold url
  exact String.toList_append

theorem route_eq (e : Endpoint) : e.route = "" ∨ ∃ rest, e.route = "/" ++ rest := by
  unfold route
  dsimp only
  split
  · next h =>
    apply h.imp_right
    intro hslash
    obtain ⟨rest, hrest⟩ := List.head?_eq_some_iff.mp hslash
    exact ⟨String.ofList rest, by rw [← String.toList_inj, hrest]; simp⟩
  · exact .inr ⟨_, rfl⟩

theorem mem_route {e : Endpoint} {c : Char} (h : c ∈ e.route.toList) :
    c = '/' ∨ c ∈ e.path.toList := by
  unfold route at h
  dsimp only at h
  split at h
  · exact .inr (Text.mem_of_mem_trim h)
  · rw [String.toList_append, List.mem_append] at h
    exact h.imp List.mem_singleton.mp Text.mem_of_mem_trim

variable {e : Endpoint} {host : String}

theorem pairsOf?_url (hkeys : ∀ pair ∈ e.pairs, ∀ c ∈ pair.1.toList, isKeyChar c = true)
    (hfront : '?' ∉ ("https://api." ++ host ++ "/api" ++ e.route).toList) :
    pairsOf? (e.url host) = some e.pairs := by
  have hdrop : ∀ c ∈ ("https://api." ++ host ++ "/api" ++ e.route).toList,
      decide (c ≠ '?') = true := by
    intro c hc
    rw [decide_eq_true_eq]
    rintro rfl
    exact hfront hc
  rw [pairsOf?, toList_url, List.dropWhile_append_of_pos hdrop]
  by_cases hnil : e.pairs = []
  · rw [queryText, if_pos hnil, hnil]
    rfl
  · have hpieces : ∀ piece ∈ e.pairs.map pieceOf, '&' ∉ piece := by
      intro piece hpiece
      obtain ⟨pair, hpair, rfl⟩ := List.mem_map.mp hpiece
      exact mark_not_mem_pieceOf (hkeys pair hpair) (by decide)
    rw [toList_queryText hnil, List.dropWhile_cons_of_neg (by decide)]
    dsimp only
    rw [List.splitOn_intercalate _ hpieces (by simpa using hnil), mapM_pieces hkeys]

theorem hash_not_mem_queryText
    (hkeys : ∀ pair ∈ e.pairs, ∀ c ∈ pair.1.toList, isKeyChar c = true) :
    '#' ∉ e.queryText.toList := by
  unfold queryText
  split
  · exact List.not_mem_nil
  · rw [String.toList_append, List.mem_append, not_or]
    refine ⟨by decide, ?_⟩
    intro h
    rcases mem_intercalate h with h | ⟨piece, hpiece, h⟩
    · exact absurd h (by decide)
    · obtain ⟨⟨key, value⟩, hpair, rfl⟩ := List.mem_map.mp hpiece
      rw [toList_piece] at h
      exact mark_not_mem_pieceOf (hkeys _ hpair) (by decide) h

section

variable (hpath : ∀ ch ∈ e.path.toList, ch ≠ '?' ∧ ch ≠ '#')

include hpath

theorem route_unmarked : ∀ ch ∈ e.route.toList, ch ≠ '?' ∧ ch ≠ '#' := by
  intro ch hch
  rcases mem_route hch with rfl | hch
  · decide
  · exact hpath ch hch

theorem front_unmarked (hhost : ∀ ch ∈ host.toList, ch ≠ '?' ∧ ch ≠ '#') :
    ∀ ch ∈ ("https://api." ++ host ++ "/api" ++ e.route).toList, ch ≠ '?' ∧ ch ≠ '#' := by
  have hfixed : ∀ s ∈ ["https://api.", "/api"], ∀ ch ∈ s.toList, ch ≠ '?' ∧ ch ≠ '#' := by
    simp
  intro ch hch
  simp only [String.toList_append, List.mem_append] at hch
  rcases hch with ((hch | hch) | hch) | hch
  · exact hfixed _ (by simp) ch hch
  · exact hhost ch hch
  · exact hfixed _ (by simp) ch hch
  · exact route_unmarked hpath ch hch

end

end Endpoint

theorem Config.isKeyChar_of_mem {c : Config} {pair : String × String}
    (hpair : pair ∈ c.resolve.endpoint.pairs) {ch : Char} (hch : ch ∈ pair.1.toList) :
    Endpoint.isKeyChar ch = true := by
  refine Endpoint.isKeyChar_of_mem ?_ hpair hch
  intro p hp
  obtain ⟨-, q, -, hcheck⟩ := Survey.exists_of_mem_results hp
  exact Config.Param.isIdentifier_of_check hcheck

/-- Reading a URL of the preview gives back its pairs, if nothing before the query looks like a
mark of it. -/
theorem pairs_of_url (c : Config) (host : String)
    (hhost : ∀ ch ∈ host.toList, ch ≠ '?' ∧ ch ≠ '#')
    (hpath : ∀ ch ∈ c.path.toList, ch ≠ '?' ∧ ch ≠ '#') :
    let e := c.resolve.endpoint
    (∃ route query, (c.preview host).url = "https://api." ++ host ++ "/api" ++ route ++ query ∧
      (route = "" ∨ ∃ rest, route = "/" ++ rest) ∧ '?' ∉ route.toList ∧
      (query = "" ∨ ∃ rest, query = "?" ++ rest)) ∧
    ('?' ∈ (c.preview host).url.toList ↔ e.pairs ≠ []) ∧
    '#' ∉ (c.preview host).url.toList ∧
    Endpoint.pairsOf? (c.preview host).url = some e.pairs := by
  intro e
  change (∃ route query, e.url host = _ ∧ _) ∧ ('?' ∈ (e.url host).toList ↔ _) ∧
    '#' ∉ (e.url host).toList ∧ Endpoint.pairsOf? (e.url host) = _
  have hpath : ∀ ch ∈ e.path.toList, ch ≠ '?' ∧ ch ≠ '#' :=
    fun ch hch => hpath ch (Text.mem_of_mem_trim hch)
  have hroute := Endpoint.route_unmarked hpath
  have hfront := Endpoint.front_unmarked hpath hhost
  have hkeys : ∀ pair ∈ e.pairs, ∀ ch ∈ pair.1.toList, Endpoint.isKeyChar ch = true :=
    fun pair hpair ch hch => Config.isKeyChar_of_mem hpair hch
  have hquestion : '?' ∉ ("https://api." ++ host ++ "/api" ++ e.route).toList :=
    fun h => (hfront _ h).1 rfl
  refine ⟨⟨e.route, e.queryText, rfl, e.route_eq, fun h => (hroute _ h).1 rfl, ?_⟩, ?_, ?_, ?_⟩
  · unfold Endpoint.queryText
    split
    · exact .inl rfl
    · exact .inr ⟨_, rfl⟩
  · rw [Endpoint.toList_url, List.mem_append, or_iff_right hquestion]
    by_cases hnil : e.pairs = []
    · simp [Endpoint.queryText, hnil]
    · simp [Endpoint.toList_queryText hnil, hnil]
  · rw [Endpoint.toList_url, List.mem_append, not_or]
    exact ⟨fun h => (hfront _ h).2 rfl, Endpoint.hash_not_mem_queryText hkeys⟩
  · exact Endpoint.pairsOf?_url hkeys hquestion

def markedConfig : Config where
  path := " users/é "
  fields := [{ column := "u.id" }, { column := "total", asName := some "sum" }]
  filters := [{ column := "u.name", operator := some .like, value := "'a&b=c%?#,é€😀'" }]
  params := [{ name := "q", default := some "" }, { name := "r", default := some "1+1=2" }]
  allowFieldSelection := true

theorem pairs_of_markedConfig_url :
    (markedConfig.preview "example.com").url =
        "https://api.example.com/api/users/é?q=example&r=1%2B1%3D2&fields=id,sum&" ++
          "u.name[like]=a%26b%3Dc%25%3F%23,%C3%A9%E2%82%AC%F0%9F%98%80" ∧
      Endpoint.pairsOf? (markedConfig.preview "example.com").url =
        some [("q", "example"), ("r", "1+1=2"), ("fields", "id,sum"),
          ("u.name[like]", "a&b=c%?#,é€😀")] := by
  refine ⟨by decide, ?_⟩
  rw [(pairs_of_url markedConfig "example.com" (by simp) (by simp [markedConfig])).2.2.2]
  decide

end EndpointPreview
