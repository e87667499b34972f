import EndpointPreview.Proofs.TextReading
/-!
The clauses of a query but for its filters, read back from their texts. A name may be spelled like a
keyword, and a column that is called `DISTINCT` is told from the keyword by counting spaces.
-/

namespace EndpointPreview

/-! ### Expressions -/

def Expr.Fixed : Expr → Prop
  | .raw _ => False
  | .column _ => True
  | .aggregate function _ => function ≠ .none

def isExprChar (c : Char) : Bool :=
  isColumnChar c || c == '('

theorem stops_isColumnChar {r : List Char} (h : Stops isExprChar r) : Stops isColumnChar r := by
  intro c hc
  have hstop := h c hc
  rw [isExprChar, Bool.or_eq_false_iff] at hstop
  exact hstop.1

def argumentChars (column : Option ColumnRef) : List Char :=
  ((column.map ColumnRef.text).getD "*").toList

theorem star_not_word {word rest r : List Char} (hne : word ≠ [])
    (hword : ∀ c ∈ word, isColumnChar c = true) : '*' :: r ≠ word ++ rest :=
  (stops_cons (by decide) r).ne_append hne hword

theorem readable_argument :
    Readable argumentChars (fun _ => True) (Stops isColumnChar) := by
  have hstar : ∀ (column : ColumnRef) {r r' : List Char}, '*' :: r ≠ column.text.toList ++ r' :=
    fun column _ _ => star_not_word column.text_ne_nil fun _ => ColumnRef.isColumnChar_of_mem
  rintro (_ | column) (_ | column') r r' _ _ hr hr' he
  · exact ⟨rfl, List.append_cancel_left he⟩
  · exact absurd he (hstar column')
  · exact absurd he.symm (hstar column)
  · obtain ⟨rfl, hrest⟩ := ColumnRef.readable trivial trivial hr hr' he
    exact ⟨rfl, hrest⟩

def Aggregation.word : Aggregation → List Char
  | .countDistinct => "COUNT".toList
  | function => function.keyword.toList

def Aggregation.inside (function : Aggregation) (column : Option ColumnRef) : List Char :=
  if function = .countDistinct then "DISTINCT ".toList ++ argumentChars column
  else argumentChars column

theorem Aggregation.isColumnChar_of_mem {function : Aggregation} :
    ∀ c ∈ function.word, isColumnChar c = true :=
  List.all_eq_true.mp (by cases function <;> decide)

theorem Aggregation.word_inj {function function' : Aggregation} (h : function ≠ .countDistinct)
    (h' : function' ≠ .countDistinct) (he : function.word = function'.word) :
    function = function' := by
  cases function <;> cases function' <;> first | rfl | contradiction

theorem Expr.aggregate_append {function : Aggregation} (h : function ≠ .none)
    (column : Option ColumnRef) (r : List Char) :
    (Expr.aggregate function column).sql.toList ++ r =
      function.word ++ '(' :: (function.inside column ++ ')' :: r) := by
  unfold sql Aggregation.word Aggregation.inside
  cases function with
  | none => exact absurd rfl h
  | _ => simp [argumentChars, Aggregation.keyword, String.toList_append]

theorem argument_ne_distinct (column column' : Option ColumnRef) (r r' : List Char) :
    argumentChars column ++ ')' :: r ≠ "DISTINCT ".toList ++ argumentChars column' ++ r' := by
  intro he
  cases column with
  | none => exact absurd (List.cons.inj he).1 (by decide)
  | some column =>
    have hword : ∀ c ∈ "DISTINCT".toList, isColumnChar c = true := List.all_eq_true.mp (by decide)
    have hsplit : "DISTINCT ".toList ++ argumentChars column' ++ r' =
        "DISTINCT".toList ++ ' ' :: (argumentChars column' ++ r') := by simp
    rw [hsplit] at he
    have hrest := (append_inj_of_stops (fun _ => ColumnRef.isColumnChar_of_mem) hword
      (stops_cons (by decide) r) (stops_cons (by decide) _) he).2
    exact absurd (List.cons.inj hrest).1 (by decide)

theorem inside_inj {function function' : Aggregation} {column column' : Option ColumnRef}
    {r r' : List Char} (hword : function.word = function'.word)
    (he : function.inside column ++ ')' :: r = function'.inside column' ++ ')' :: r') :
    (function = function' ∧ column = column') ∧ r = r' := by
  have hargument : argumentChars column ++ ')' :: r = argumentChars column' ++ ')' :: r' →
      column = column' ∧ r = r' := by
    intro he
    obtain ⟨hc, hrest⟩ := readable_argument trivial trivial (stops_cons (by decide) r)
      (stops_cons (by decide) r') he
    exact ⟨hc, (List.cons.inj hrest).2⟩
  unfold Aggregation.inside at he
  split_ifs at he with h h'
  · rw [List.append_assoc, List.append_assoc] at he
    obtain ⟨hc, hr⟩ := hargument (List.append_cancel_left he)
    exact ⟨⟨h.trans h'.symm, hc⟩, hr⟩
  · exact absurd he.symm (argument_ne_distinct _ _ _ _)
  · exact absurd he (argument_ne_distinct _ _ _ _)
  · next h' =>
    obtain ⟨hc, hr⟩ := hargument he
    exact ⟨⟨Aggregation.word_inj h h' hword, hc⟩, hr⟩

theorem Expr.readable : Readable (fun e : Expr => e.sql.toList) Expr.Fixed (Stops isExprChar) := by
  have hbracket : isColumnChar '(' = false := by decide
  have hcolumn : ∀ {column : ColumnRef} {function : Aggregation} {r t : List Char},
      Stops isExprChar r → column.text.toList ++ r ≠ function.word ++ '(' :: t := by
    intro column function r t hr he
    obtain ⟨-, hrest⟩ := append_inj_of_stops (fun _ => ColumnRef.isColumnChar_of_mem)
      Aggregation.isColumnChar_of_mem (stops_isColumnChar hr) (stops_cons hbracket t) he
    rw [hrest] at hr
    exact absurd (hr '(' rfl) (by decide)
  intro e e' r r' hfixed hfixed' hr hr' he
  dsimp only at he
  cases e with
  | raw text => exact hfixed.elim
  | column column =>
    cases e' with
    | raw text => exact hfixed'.elim
    | column column' =>
      obtain ⟨rfl, hrest⟩ := ColumnRef.readable trivial trivial (stops_isColumnChar hr)
        (stops_isColumnChar hr') he
      exact ⟨rfl, hrest⟩
    | aggregate function' column' =>
      rw [aggregate_append hfixed'] at he
      exact absurd he (hcolumn hr)
  | aggregate function column =>
    cases e' with
    | raw text => exact hfixed'.elim
    | column column' =>
      rw [aggregate_append hfixed] at he
      exact absurd he.symm (hcolumn hr')
    | aggregate function' column' =>
      rw [aggregate_append hfixed, aggregate_append hfixed'] at he
      obtain ⟨hword, hrest⟩ := append_inj_of_stops Aggregation.isColumnChar_of_mem
        Aggregation.isColumnChar_of_mem (stops_cons hbracket _) (stops_cons hbracket _) he
      obtain ⟨⟨rfl, rfl⟩, hend⟩ := inside_inj hword (List.cons.inj hrest).2
      exact ⟨rfl, hend⟩

/-! ### The first line -/

def Projection.Fixed (p : Projection) : Prop :=
  p.expr.Fixed

def asChars : Option Ident → List Char :=
  optionChars " AS ".toList fun name => name.text.toList

theorem Projection.toList_sql (p : Projection) :
    p.sql.toList = p.expr.sql.toList ++ asChars p.asName := by
  unfold sql
  cases p.asName with
  | none => exact (List.append_nil _).symm
  | some name => simp [asChars, optionChars, String.toList_append]

theorem TableRef.toList_sql (t : TableRef) :
    t.sql.toList = t.name.text.toList ++ asChars t.asName := by
  unfold sql
  cases t.asName with
  | none => exact (List.append_nil _).symm
  | some name => simp [asChars, optionChars, String.toList_append]

def EndsNamed (r : List Char) : Prop :=
  Stops isExprChar r ∧ ¬" AS ".toList <+: r

theorem endsNamed_nil : EndsNamed [] :=
  ⟨stops_nil _, by decide⟩

theorem readable_asChars : Readable asChars (fun _ => True) EndsNamed := by
  have hnames : Readable (fun name : Ident => name.text.toList) (fun _ => True) EndsNamed :=
    Ident.readable.weaken fun _ hr => stops_isColumnChar hr.1
  intro o o' r r' _ _ hr hr' he
  refine hnames.option ?_ (fun _ _ => trivial) (fun _ _ => trivial) hr hr' he
  rintro name r r' - hr rfl
  exact hr.2 (List.prefix_append _ _)

theorem stops_asChars {r : List Char} (hr : Stops isExprChar r) (o : Option Ident) :
    Stops isExprChar (asChars o ++ r) := by
  cases o with
  | none => exact hr
  | some name => exact stops_cons (by decide) _

theorem Projection.readable :
    Readable (fun p : Projection => p.sql.toList) Projection.Fixed EndsNamed := by
  intro p p' r r' hp hp' hr hr' he
  dsimp only at he
  rw [toList_sql, toList_sql, List.append_assoc, List.append_assoc] at he
  obtain ⟨hexpr, hrest⟩ := Expr.readable hp hp' (stops_asChars hr.1 _) (stops_asChars hr'.1 _) he
  obtain ⟨hname, hend⟩ := readable_asChars trivial trivial hr hr' hrest
  cases p
  cases p'
  cases hexpr
  cases hname
  exact ⟨rfl, hend⟩

theorem TableRef.readable :
    Readable (fun t : TableRef => t.sql.toList) (fun _ => True) EndsNamed := by
  intro t t' r r' _ _ hr hr' he
  dsimp only at he
  rw [toList_sql, toList_sql, List.append_assoc, List.append_assoc] at he
  obtain ⟨htable, hrest⟩ := Ident.readable trivial trivial
    (stops_isColumnChar (stops_asChars hr.1 _)) (stops_isColumnChar (stops_asChars hr'.1 _)) he
  obtain ⟨hname, hend⟩ := readable_asChars trivial trivial hr hr' hrest
  cases t
  cases t'
  cases htable
  cases hname
  exact ⟨rfl, hend⟩

def moreProjections : List Projection → List Char :=
  moreChars ", ".toList fun p => p.sql.toList

def sourceChars : Option TableRef → List Char :=
  optionChars " FROM ".toList fun t => t.sql.toList

def selectionChars (projection : List Projection) (source : Option TableRef) : List Char :=
  (projectionSql projection).toList ++ sourceChars source

def afterFirst (p : Projection) (projection : List Projection) (source : Option TableRef) :
    List Char :=
  asChars p.asName ++ (moreProjections projection ++ sourceChars source)

theorem selectionChars_cons (p : Projection) (projection : List Projection)
    (source : Option TableRef) :
    selectionChars (p :: projection) source =
      p.sql.toList ++ (moreProjections projection ++ sourceChars source) := by
  have hmap : ((p :: projection).map Projection.sql).map String.toList =
      (p :: projection).map fun p => p.sql.toList := List.map_map
  rw [selectionChars, projectionSql, if_neg (List.cons_ne_nil _ _), String.toList_intercalate, hmap,
    intercalate_map_cons, List.append_assoc]
  rfl

theorem selectionChars_eq_afterFirst (p : Projection) (projection : List Projection)
    (source : Option TableRef) :
    selectionChars (p :: projection) source =
      p.expr.sql.toList ++ afterFirst p projection source := by
  rw [selectionChars_cons, Projection.toList_sql, List.append_assoc]
  rfl

def EndsSelected (r : List Char) : Prop :=
  EndsNamed r ∧ ¬", ".toList <+: r

theorem endsNamed_comma (s : List Char) : EndsNamed (", ".toList ++ s) := by
  refine ⟨stops_cons (by decide) _, ?_⟩
  simp [List.cons_prefix_cons]

theorem endsSelected_sourceChars (source : Option TableRef) : EndsSelected (sourceChars source) := by
  cases source with
  | none => exact ⟨endsNamed_nil, by decide⟩
  | some t =>
    refine ⟨⟨stops_cons (by decide) _, ?_⟩, ?_⟩
    · simp [sourceChars, optionChars, List.cons_prefix_cons]
    · simp [sourceChars, optionChars, List.cons_prefix_cons]

theorem sourceChars_inj {source source' : Option TableRef}
    (he : sourceChars source = sourceChars source') : source = source' := by
  cases source with
  | none =>
    cases source' with
    | none => rfl
    | some t' => cases he
  | some t =>
    cases source' with
    | none => cases he
    | some t' =>
      rw [TableRef.readable.inj endsNamed_nil trivial trivial (List.append_cancel_left he)]

theorem readable_moreProjections :
    Readable moreProjections (fun projection => ∀ p ∈ projection, p.Fixed) EndsSelected :=
  Projection.readable.more endsNamed_comma id

theorem Expr.exists_word {e : Expr} (h : e.Fixed) :
    ∃ word rest, e.sql.toList = word ++ rest ∧ word ≠ [] ∧ (∀ c ∈ word, isColumnChar c = true) ∧
      (rest = [] ∨ ∃ t, rest = '(' :: t) := by
  cases e with
  | raw text => exact h.elim
  | column column =>
    exact ⟨column.text.toList, [], (List.append_nil _).symm, column.text_ne_nil,
      fun _ => ColumnRef.isColumnChar_of_mem, .inl rfl⟩
  | aggregate function column =>
    have happend := aggregate_append h column []
    rw [List.append_nil] at happend
    have hne : function.word ≠ [] := by cases function <;> decide
    exact ⟨_, _, happend, hne, Aggregation.isColumnChar_of_mem, .inr ⟨_, rfl⟩⟩

theorem endsNamed_moreProjections (projection : List Projection) (source : Option TableRef) :
    EndsNamed (moreProjections projection ++ sourceChars source) :=
  ends_moreChars endsNamed_comma id (endsSelected_sourceChars source) projection

theorem exists_word_of_selection {p : Projection} (h : p.Fixed) (projection : List Projection)
    (source : Option TableRef) :
    ∃ word rest, selectionChars (p :: projection) source = word ++ rest ∧ word ≠ [] ∧
      (∀ c ∈ word, isColumnChar c = true) ∧ Stops isColumnChar rest ∧
      (rest = afterFirst p projection source ∨ ∃ t, rest = '(' :: t) := by
  obtain ⟨word, rest, hsql, hne, hword, hrest⟩ := Expr.exists_word h
  refine ⟨word, rest ++ afterFirst p projection source, ?_, hne, hword, ?_⟩
  · rw [selectionChars_eq_afterFirst, hsql, List.append_assoc]
  · rcases hrest with rfl | ⟨t, rfl⟩
    · have hstops := stops_asChars (endsNamed_moreProjections projection source).1 p.asName
      exact ⟨stops_isColumnChar hstops, .inl rfl⟩
    · exact ⟨stops_cons (by decide) _, .inr ⟨_, rfl⟩⟩

theorem star_ne_selectionChars {p : Projection} (h : p.Fixed) (projection : List Projection)
    (source : Option TableRef) (r : List Char) :
    '*' :: r ≠ selectionChars (p :: projection) source := by
  obtain ⟨word, rest, hsql, hne, hword, -⟩ := exists_word_of_selection h projection source
  rw [hsql]
  exact star_not_word hne hword

theorem selectionChars_inj {projection projection' : List Projection}
    {source source' : Option TableRef} (h : ∀ p ∈ projection, p.Fixed)
    (h' : ∀ p ∈ projection', p.Fixed)
    (he : selectionChars projection source = selectionChars projection' source') :
    projection = projection' ∧ source = source' := by
  cases projection with
  | nil =>
    cases projection' with
    | nil => exact ⟨rfl, sourceChars_inj (List.append_cancel_left he)⟩
    | cons p' projection' =>
      exact absurd he (star_ne_selectionChars (h' p' List.mem_cons_self) _ _ _)
  | cons p projection =>
    cases projection' with
    | nil => exact absurd he.symm (star_ne_selectionChars (h p List.mem_cons_self) _ _ _)
    | cons p' projection' =>
      rw [List.forall_mem_cons] at h h'
      rw [selectionChars_cons, selectionChars_cons] at he
      obtain ⟨rfl, hrest⟩ := Projection.readable h.1 h'.1 (endsNamed_moreProjections _ _)
        (endsNamed_moreProjections _ _) he
      obtain ⟨rfl, hsource⟩ := readable_moreProjections h.2 h'.2 (endsSelected_sourceChars _)
        (endsSelected_sourceChars _) hrest
      exact ⟨rfl, sourceChars_inj hsource⟩

/-! After its first expression a selection has an even number of spaces before a comma or the end.
One space follows the keyword `DISTINCT`, so a column of that name cannot stand for it. -/

def gaps (s : List Char) : Nat :=
  (s.takeWhile (· ≠ ',')).count ' '

theorem gaps_append {s : List Char} (h : ',' ∉ s) (r : List Char) :
    gaps (s ++ r) = s.count ' ' + gaps r := by
  have hs : ∀ c ∈ s, decide (c ≠ ',') = true := by
    intro c hc
    exact decide_eq_true fun he => h (he ▸ hc)
  rw [gaps, List.takeWhile_append_of_pos hs, List.count_append]
  rfl

theorem gaps_word {word : List Char} (h : ∀ c ∈ word, isColumnChar c = true) (r : List Char) :
    gaps (word ++ r) = gaps r := by
  have hcomma : ',' ∉ word := fun hc => absurd (h _ hc) (by decide)
  have hspace : ' ' ∉ word := fun hc => absurd (h _ hc) (by decide)
  rw [gaps_append hcomma, List.count_eq_zero.mpr hspace, Nat.zero_add]

theorem gaps_asChars (o : Option Ident) (r : List Char) :
    gaps (asChars o ++ r) % 2 = gaps r % 2 := by
  cases o with
  | none => rfl
  | some name =>
    have hspaces : " AS ".toList.count ' ' = 2 := by decide
    rw [asChars, optionChars, List.append_assoc, gaps_append (by decide),
      gaps_word fun _ => Ident.isColumnChar_of_mem, hspaces, Nat.add_mod_left]

theorem gaps_sourceChars (source : Option TableRef) : gaps (sourceChars source) % 2 = 0 := by
  cases source with
  | none => rfl
  | some t =>
    have hspaces : " FROM ".toList.count ' ' = 2 := by decide
    have has := gaps_asChars t.asName []
    rw [List.append_nil] at has
    rw [sourceChars, optionChars, gaps_append (by decide), TableRef.toList_sql,
      gaps_word fun _ => Ident.isColumnChar_of_mem, hspaces, Nat.add_mod_left, has]
    rfl

theorem gaps_afterFirst (p : Projection) (projection : List Projection)
    (source : Option TableRef) : gaps (afterFirst p projection source) % 2 = 0 := by
  rw [afterFirst, gaps_asChars]
  cases projection with
  | nil => exact gaps_sourceChars source
  | cons p' projection => rfl

/-- The word after the first space is a keyword, so another space follows it. -/
theorem exists_word_of_afterFirst {p : Projection} {projection : List Projection}
    {source : Option TableRef} {s : List Char} (h : afterFirst p projection source = ' ' :: s) :
    ∃ word rest, s = word ++ ' ' :: rest ∧ word ≠ [] ∧ ∀ c ∈ word, isColumnChar c = true := by
  rw [afterFirst] at h
  cases hname : p.asName with
  | some name =>
    rw [hname, asChars, optionChars, List.append_assoc] at h
    exact ⟨"AS".toList, _, (List.cons.inj h).2.symm, by decide, List.all_eq_true.mp (by decide)⟩
  | none =>
    rw [hname] at h
    cases projection with
    | cons p' projection => exact absurd (List.cons.inj h).1 (by decide)
    | nil =>
      cases source with
      | none => cases h
      | some t =>
        exact ⟨"FROM".toList, _, (List.cons.inj h).2.symm, by decide, List.all_eq_true.mp (by decide)⟩

theorem afterFirst_ne_selection {p : Projection} {projection projection' : List Projection}
    {source source' : Option TableRef} (h' : ∀ p ∈ projection', p.Fixed) :
    afterFirst p projection source ≠ ' ' :: selectionChars projection' source' := by
  intro he
  have heven := gaps_afterFirst p projection source
  rw [he, ← List.singleton_append, gaps_append (by decide)] at heven
  obtain ⟨word, rest, hs, hne, hword⟩ := exists_word_of_afterFirst he
  cases projection' with
  | nil => exact star_not_word hne hword hs
  | cons p' projection' =>
    obtain ⟨word', rest', hsel, -, hword', hstops, hrest⟩ :=
      exists_word_of_selection (h' p' List.mem_cons_self) projection' source'
    rw [hsel] at hs heven
    have hspace : rest' = ' ' :: rest :=
      (append_inj_of_stops hword' hword hstops (stops_cons (by decide) _) hs).2
    rcases hrest with hrest | ⟨t, hrest⟩
    · -- The spaces would be even in number both with the one before the selection and without it.
      have heven' := gaps_afterFirst p' projection' source'
      have hone : [' '].count ' ' = 1 := by decide
      rw [gaps_word hword', hrest, hone] at heven
      omega
    · rw [hspace] at hrest
      exact absurd (List.cons.inj hrest).1 (by decide)

theorem selectionChars_ne_distinct {projection projection' : List Projection}
    {source source' : Option TableRef} (h : ∀ p ∈ projection, p.Fixed)
    (h' : ∀ p ∈ projection', p.Fixed) :
    selectionChars projection source ≠ "DISTINCT ".toList ++ selectionChars projection' source' := by
  intro he
  cases projection with
  | nil => exact absurd (List.cons.inj he).1 (by decide)
  | cons p projection =>
    have hdistinct : ∀ c ∈ "DISTINCT".toList, isColumnChar c = true :=
      List.all_eq_true.mp (by decide)
    obtain ⟨word, rest, hsel, -, hword, hstops, hrest⟩ :=
      exists_word_of_selection (h p List.mem_cons_self) projection source
    -- The first expression has to be the column `DISTINCT`.
    rw [hsel] at he
    have hspace : rest = ' ' :: selectionChars projection' source' :=
      (append_inj_of_stops hword hdistinct hstops (stops_cons (by decide) _) he).2
    rcases hrest with hrest | ⟨t, hrest⟩
    · exact afterFirst_ne_selection h' (hrest.symm.trans hspace)
    · rw [hspace] at hrest
      exact absurd (List.cons.inj hrest).1 (by decide)

theorem Query.toList_firstLine (q : Query) :
    q.firstLine.toList = "SELECT ".toList ++
      ((if q.distinct then "DISTINCT ".toList else []) ++
        selectionChars q.projection q.source) := by
  unfold firstLine
  cases q.distinct <;> cases q.source <;>
    simp [selectionChars, sourceChars, optionChars, String.toList_append]

theorem Query.firstLine_inj {q q' : Query} (h : ∀ p ∈ q.projection, p.Fixed)
    (h' : ∀ p ∈ q'.projection, p.Fixed) (he : q.firstLine = q'.firstLine) :
    q.distinct = q'.distinct ∧ q.projection = q'.projection ∧ q.source = q'.source := by
  rw [← String.toList_inj, toList_firstLine, toList_firstLine] at he
  have hselection := List.append_cancel_left he
  split_ifs at hselection with hq hq' hq'
  · exact ⟨hq.trans hq'.symm, selectionChars_inj h h' (List.append_cancel_left hselection)⟩
  · exact absurd hselection.symm (selectionChars_ne_distinct h' h)
  · exact absurd hselection (selectionChars_ne_distinct h h')
  · rw [Bool.not_eq_true] at hq hq'
    exact ⟨hq.trans hq'.symm, selectionChars_inj h h' hselection⟩

/-! ### Joins -/

theorem readable_joinKind :
    Readable (fun kind : JoinKind => kind.keyword.toList) (fun _ => True) (fun _ => True) := by
  apply readable_of_prefixFree
  intro kind kind'
  cases kind <;> cases kind' <;> decide

theorem JoinClause.toList_sql {j : JoinClause} (h : j.condition = none) :
    j.sql.toList = j.kind.keyword.toList ++ (" JOIN ".toList ++ (j.table.sql.toList ++
      (" ON ".toList ++ (j.left.text.toList ++ (" = ".toList ++ j.right.text.toList))))) := by
  simp [sql, h, String.toList_append]

theorem JoinClause.sql_inj {j j' : JoinClause} (h : j.condition = none) (h' : j'.condition = none)
    (he : j.sql = j'.sql) : j = j' := by
  have hon : ∀ s, EndsNamed (" ON ".toList ++ s) := by
    intro s
    refine ⟨stops_cons (by decide) _, ?_⟩
    simp [List.cons_prefix_cons]
  have hequals : ∀ s, Stops isColumnChar (" = ".toList ++ s) := fun _ => stops_cons (by decide) _
  rw [← String.toList_inj, toList_sql h, toList_sql h'] at he
  obtain ⟨hkind, he⟩ := readable_joinKind trivial trivial trivial trivial he
  obtain ⟨htable, he⟩ := TableRef.readable trivial trivial (hon _) (hon _)
    (List.append_cancel_left he)
  obtain ⟨hleft, he⟩ := ColumnRef.readable trivial trivial (hequals _) (hequals _)
    (List.append_cancel_left he)
  have hright := ColumnRef.readable.inj (stops_nil _) trivial trivial (List.append_cancel_left he)
  cases j
  cases j'
  simp only at hkind htable hleft hright h h'
  rw [hkind, htable, hleft, hright, h, h']

/-! ### Grouping, order and limit -/

theorem list_inj {α : Type} {text : α → String}
    (h : Readable (fun a => (text a).toList) (fun _ => True) (Stops isColumnChar))
    {items items' : List α} (hne : items ≠ []) (hne' : items' ≠ [])
    (he : ", ".intercalate (items.map text) = ", ".intercalate (items'.map text)) :
    items = items' := by
  have hcomma : ∀ s, Stops isColumnChar (", ".toList ++ s) := fun _ => stops_cons (by decide) _
  have hnil : ∀ {r : List Char}, r = [] → Stops isColumnChar r ∧ ¬", ".toList <+: r := by
    rintro r rfl
    exact ⟨stops_nil _, by decide⟩
  have hmap : ∀ items : List α, (items.map text).map String.toList =
      items.map fun a => (text a).toList := fun _ => List.map_map
  rw [← String.toList_inj, String.toList_intercalate, String.toList_intercalate, hmap, hmap] at he
  exact (h.intercalate hcomma hnil).inj rfl ⟨hne, fun _ _ => trivial⟩ ⟨hne', fun _ _ => trivial⟩ he

theorem clause_inj {α : Type} {text : α → String}
    (h : Readable (fun a => (text a).toList) (fun _ => True) (Stops isColumnChar))
    {items items' : List α} [Decidable (items = [])] [Decidable (items' = [])] {lead : String}
    (he : (if items = [] then none else some (lead ++ ", ".intercalate (items.map text))) =
      if items' = [] then none else some (lead ++ ", ".intercalate (items'.map text))) :
    items = items' := by
  split_ifs at he with hne hne' hne'
  · exact hne.trans hne'.symm
  · rw [Option.some_inj, ← String.toList_inj, String.toList_append, String.toList_append] at he
    exact list_inj h hne hne' (String.toList_inj.mp (List.append_cancel_left he))

theorem groupBySql_inj {columns columns' : List ColumnRef}
    (he : groupBySql columns = groupBySql columns') : columns = columns' :=
  clause_inj ColumnRef.readable he

theorem readable_direction : Readable (fun direction : Direction => direction.keyword.toList)
    (fun _ => True) (fun _ => True) := by
  apply readable_of_prefixFree
  intro direction direction'
  cases direction <;> cases direction' <;> decide

theorem OrderItem.readable :
    Readable (fun o : OrderItem => o.sql.toList) (fun _ => True) (Stops isColumnChar) := by
  have hspace : ∀ s, Stops isColumnChar (" ".toList ++ s) := fun _ => stops_cons (by decide) _
  intro o o' r r' _ _ _ _ he
  simp only [sql, String.toList_append, List.append_assoc] at he
  obtain ⟨hcolumn, he⟩ := ColumnRef.readable trivial trivial (hspace _) (hspace _) he
  obtain ⟨hdirection, hrest⟩ := readable_direction trivial trivial trivial trivial
    (List.append_cancel_left he)
  cases o
  cases o'
  cases hcolumn
  cases hdirection
  exact ⟨rfl, hrest⟩

theorem orderBySql_inj {items items' : List OrderItem}
    (he : orderBySql items = orderBySql items') : items = items' :=
  clause_inj OrderItem.readable he

theorem Limit.sql_inj {l l' : Limit} (he : l.sql = l'.sql) : l = l' := by
  have hstops : ∀ paged : Bool, Stops Char.isDigit
      (if paged then " OFFSET \x7b\x7boffset\x7d\x7d" else "").toList := by
    rintro (_ | _)
    · exact stops_nil _
    · exact stops_cons (by decide) _
  have hpaged : ∀ paged paged' : Bool,
      (if paged then " OFFSET \x7b\x7boffset\x7d\x7d" else "").toList =
        (if paged' then " OFFSET \x7b\x7boffset\x7d\x7d" else "").toList → paged = paged' := by
    decide
  simp only [← String.toList_inj, sql, String.toList_append, List.append_assoc] at he
  obtain ⟨hcount, he⟩ := readable_count trivial trivial (hstops _) (hstops _)
    (List.append_cancel_left he)
  cases l
  cases l'
  cases hcount
  cases hpaged _ _ he
  rfl

end EndpointPreview
