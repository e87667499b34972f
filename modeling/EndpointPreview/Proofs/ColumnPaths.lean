import EndpointPreview.Proofs.QueryText
/-!
Column references are lists of names joined by dots. The names are those of one pattern, the last of
them is the name of the column, and a column that is qualified without a check would pass it.
-/

namespace EndpointPreview

open Text

/-- `[A-Za-z_]` -/
def StartsName (c : Char) : Prop :=
  ('A' ≤ c ∧ c ≤ 'Z') ∨ ('a' ≤ c ∧ c ≤ 'z') ∨ c = '_'

/-- `[A-Za-z_][A-Za-z0-9_]*` -/
def MatchesName (s : String) : Prop :=
  ∃ c cs, s.toList = c :: cs ∧ StartsName c ∧ ∀ d ∈ cs, StartsName d ∨ ('0' ≤ d ∧ d ≤ '9')

theorem isNameStart_iff (c : Char) : isNameStart c = true ↔ StartsName c := by
  have hstart : isNameStart c = ((decide ('A' ≤ c ∧ c ≤ 'Z') ||
      decide ('a' ≤ c) && decide (c ≤ 'z')) || c == '_') := rfl
  simp only [hstart, StartsName, Bool.or_eq_true, Bool.and_eq_true, decide_eq_true_eq, beq_iff_eq,
    or_assoc]

theorem isNameRest_iff (c : Char) :
    isNameRest c = true ↔ StartsName c ∨ ('0' ≤ c ∧ c ≤ '9') := by
  have hrest : isNameRest c = (c.isAlpha || (decide ('0' ≤ c) && decide (c ≤ '9')) || c == '_') := rfl
  rw [← isNameStart_iff]
  simp only [hrest, isNameStart, Bool.or_eq_true, Bool.and_eq_true, decide_eq_true_eq]
  exact or_right_comm

theorem isIdentifier_iff (s : String) : isIdentifier s = true ↔ MatchesName s := by
  unfold isIdentifier MatchesName
  cases s.toList with
  | nil => simp [isName]
  | cons c cs => simp [isName, isNameStart_iff, isNameRest_iff]

theorem not_isBlank_of_isNameRest {c : Char} (h : isNameRest c = true) : isBlank c = false := by
  rw [← Bool.not_eq_true]
  intro hblank
  simp only [isBlank, Bool.or_eq_true, Bool.and_eq_true, decide_eq_true_eq, beq_iff_eq] at hblank
  simp only [isNameRest_iff, StartsName, Char.le_def, UInt32.le_iff_toNat_le, Char.toNat_val] at h
  change ((65 ≤ c.toNat ∧ c.toNat ≤ 90) ∨ (97 ≤ c.toNat ∧ c.toNat ≤ 122) ∨ c = '_') ∨
    (48 ≤ c.toNat ∧ c.toNat ≤ 57) at h
  rcases h with (h | h | rfl) | h
  · omega
  · omega
  · exact absurd hblank (by decide)
  · omega

theorem splitOn_names {names : List String} (hne : names ≠ [])
    (h : ∀ name ∈ names, isIdentifier name = true) :
    (".".intercalate names).toList.splitOn '.' = names.map String.toList := by
  have hdot : ".".toList = ['.'] := rfl
  rw [String.toList_intercalate, hdot]
  apply List.splitOn_intercalate
  · intro chars hchars
    obtain ⟨name, hname, rfl⟩ := List.mem_map.mp hchars
    exact dot_not_mem_of_isName (h name hname)
  · simpa using hne

theorem isColumnPath_names {names : List String} (hne : names ≠ [])
    (h : ∀ name ∈ names, isIdentifier name = true) :
    isColumnPath (".".intercalate names) = true := by
  rw [isColumnPath, splitOn_names hne h, List.all_map, List.all_eq_true]
  exact h

theorem isColumnPath_iff (s : String) : isColumnPath s = true ↔
    ∃ names : List String, names ≠ [] ∧ (∀ name ∈ names, isIdentifier name = true) ∧
      s = ".".intercalate names := by
  constructor
  · intro h
    exact ColumnRef.exists_names ⟨s, h⟩
  · rintro ⟨names, hne, h, rfl⟩
    exact isColumnPath_names hne h

namespace ColumnRef

theorem name_of_names {column : ColumnRef} {names : List String} (hne : names ≠ [])
    (h : ∀ name ∈ names, isIdentifier name = true) (htext : column.text = ".".intercalate names) :
    column.name = names.getLast hne := by
  rw [name, htext, splitOn_names hne h, List.getLastD_eq_getLast?, List.getLast?_map,
    List.getLast?_eq_some_getLast hne, Option.map_some, Option.getD_some, String.ofList_toList]

theorem trim_text (column : ColumnRef) : Text.trim column.text = column.text := by
  have hblank : ∀ c ∈ column.text.toList, isBlank c = false := by
    intro c hc
    rcases column.mem_text hc with h | rfl
    · exact not_isBlank_of_isNameRest h
    · rfl
  rw [← String.toList_inj, toList_trim]
  exact trimChars_eq_self (fun c hc => hblank c (List.mem_of_mem_head? hc)) fun c hc =>
    hblank c (List.mem_of_mem_getLast? hc)

theorem ofText?_text (column : ColumnRef) : ofText? column.text = some column :=
  ofText?_eq_some.mpr column.trim_text.symm

theorem name_qualified (table column : Ident) : (qualified table column).name = column.text := by
  have hnames : ∀ name ∈ [table.text, column.text], isIdentifier name = true := by
    simp [table.safe, column.safe]
  have htext : (qualified table column).text = ".".intercalate [table.text, column.text] := rfl
  exact name_of_names (List.cons_ne_nil _ _) hnames htext

end ColumnRef

/-- The check of a column reference accepts one or more names joined by dots. What is read from them
is the reference whose name is the last of them, and so is a column qualified with its table. -/
theorem column_path_grammar :
    (∀ s : String, isColumnPath s = true ↔
      ∃ names : List String, names ≠ [] ∧ (∀ name ∈ names, MatchesName name) ∧
        s = ".".intercalate names) ∧
    (∀ (names : List String) (hne : names ≠ []), (∀ name ∈ names, MatchesName name) →
      ∃ column, ColumnRef.ofText? (".".intercalate names) = some column ∧
        column.text = ".".intercalate names ∧ column.name = names.getLast hne ∧
        isIdentifier column.name = true) ∧
    ∀ table column : Ident,
      isColumnPath (table.text ++ "." ++ column.text) = true ∧
      ColumnRef.ofText? (table.text ++ "." ++ column.text) =
        some (ColumnRef.qualified table column) ∧
      (ColumnRef.qualified table column).name = column.text := by
  simp only [← isIdentifier_iff]
  refine ⟨isColumnPath_iff, ?_, ?_⟩
  · intro names hne hnames
    let column : ColumnRef := ⟨".".intercalate names, isColumnPath_names hne hnames⟩
    have hname : column.name = names.getLast hne := ColumnRef.name_of_names hne hnames rfl
    refine ⟨column, column.ofText?_text, rfl, hname, ?_⟩
    rw [hname]
    exact hnames _ (List.getLast_mem hne)
  · intro table column
    refine ⟨(ColumnRef.qualified table column).safe, ?_, ColumnRef.name_qualified table column⟩
    exact (ColumnRef.qualified table column).ofText?_text

theorem column_path_grammar_of_three :
    ∃ column, ColumnRef.ofText? "shop._orders.total2" = some column ∧ column.name = "total2" := by
  have hnames : ∀ name ∈ ["shop", "_orders", "total2"], MatchesName name := by
    simp only [← isIdentifier_iff]
    decide
  obtain ⟨column, hread, -, hname, -⟩ :=
    column_path_grammar.2.1 ["shop", "_orders", "total2"] (List.cons_ne_nil _ _) hnames
  exact ⟨column, hread, hname⟩

end EndpointPreview
