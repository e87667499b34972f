import EndpointPreview.Proofs.TextReading
/-!
Filters read back from their text. `AND` stands between the bounds of a range and between two
predicates; what follows it tells which: a bound is a placeholder or a call, a predicate begins with a
bracket or a column.
-/

namespace EndpointPreview

/-! ### Values -/

inductive Value.Written : Value → Prop
  | param {name : String} (h : isIdentifier name = true) : Written (.param name)
  | call (function : Function) : Written (.call function)

inductive Value.Fixed : Value → Prop
  | missing : Fixed .missing
  | written {v : Value} (h : v.Written) : Fixed v

theorem Value.fixed_of_sound {v : Value} (hsound : v.Sound) (hliteral : v.isLiteral = false) :
    v.Fixed := by
  cases v with
  | literal text => cases hliteral
  | param name => exact .written (.param hsound)
  | call function => exact .written (.call function)
  | missing => exact .missing

def isValueStart (c : Char) : Bool :=
  c ∈ ['\x7b', 'N', 'T', 'C']

theorem Value.Written.exists_start {v : Value} (h : v.Written) :
    ∃ c cs, v.sql.toList = c :: cs ∧ isValueStart c = true := by
  cases h with
  | @param name h =>
    refine ⟨'\x7b', '\x7b' :: (name.toList ++ ['\x7d', '\x7d']), ?_, by decide⟩
    simp [sql, String.toList_append]
  | call function => cases function <;> exact ⟨_, _, rfl, by decide⟩

theorem readable_call :
    Readable (fun function : Function => function.call.toList) (fun _ => True) (fun _ => True) := by
  apply readable_of_prefixFree
  intro function function'
  cases function <;> cases function' <;> decide

theorem Value.param_append (name : String) (r : List Char) :
    (Value.param name).sql.toList ++ r =
      '\x7b' :: '\x7b' :: (name.toList ++ '\x7d' :: '\x7d' :: r) := by
  simp [sql, String.toList_append]

theorem Value.param_ne_call (name : String) (function : Function) (r r' : List Char) :
    (Value.param name).sql.toList ++ r ≠ (Value.call function).sql.toList ++ r' := by
  rw [param_append]
  intro he
  cases function <;> exact absurd (List.cons.inj he).1 (by decide)

theorem Value.readable : Readable (fun v : Value => v.sql.toList) Written (fun _ => True) := by
  intro v v' r r' hv hv' _ _ he
  dsimp only at he
  cases hv with
  | @param name h =>
    cases hv' with
    | @param name' h' =>
      have hstops : ∀ r, Stops isNameRest ('\x7d' :: '\x7d' :: r) := fun _ => stops_cons (by decide) _
      rw [param_append, param_append] at he
      obtain ⟨hname, hrest⟩ := append_inj_of_stops (fun _ => isNameRest_of_mem h)
        (fun _ => isNameRest_of_mem h') (hstops r) (hstops r')
        (List.cons.inj (List.cons.inj he).2).2
      rw [String.toList_inj.mp hname]
      exact ⟨rfl, (List.cons.inj (List.cons.inj hrest).2).2⟩
    | call function' => exact absurd he (param_ne_call _ _ _ _)
  | call function =>
    cases hv' with
    | param h' => exact absurd he.symm (param_ne_call _ _ _ _)
    | call function' =>
      obtain ⟨rfl, hrest⟩ := readable_call trivial trivial trivial trivial he
      exact ⟨rfl, hrest⟩

def Value.written? : Value → Option Value
  | .missing => none
  | v => some v

theorem Value.Fixed.written_of_mem {v w : Value} (h : v.Fixed) (hw : w ∈ v.written?) :
    w.Written := by
  cases h with
  | missing => cases hw
  | written h =>
    cases h with
    | param h => cases hw; exact .param h
    | call function => cases hw; exact .call function

theorem Value.written?_inj {v v' : Value} (he : v.written? = v'.written?) : v = v' := by
  cases v <;> cases v' <;> cases he <;> rfl

/-! ### Operands -/

inductive Operand.Fixed : Arity → Operand → Prop
  | none : Fixed .none .none
  | single {v : Value} (hv : v.Fixed) : Fixed .single (.single v)
  | range {low : Value} {high : Option Value} (hlow : low.Fixed)
      (hhigh : ∀ v ∈ high, v.Written) : Fixed .range (.range low high)
  | emptyList : Fixed .list (.list [])
  | list {v : Value} (hv : v.Fixed) : Fixed .list (.list [v])

theorem Operand.fixed_of_fits {operator : Operator} {operand : Operand} (h : operand.Fits operator)
    (hliteral : ∀ v ∈ operand.values, v.isLiteral = false) : operand.Fixed operator.arity := by
  have hfixed : ∀ v ∈ operand.values, v.Fixed :=
    fun v hv => Value.fixed_of_sound (h.values v hv) (hliteral v hv)
  rw [← h.arity]
  cases operand with
  | none => exact .none
  | single v => exact .single (hfixed v List.mem_cons_self)
  | range low high =>
    refine .range (hfixed low List.mem_cons_self) ?_
    rintro v rfl
    cases hfixed v (by simp [values]) with
    | missing => exact absurd rfl (h.bounded _ _ rfl)
    | written hv => exact hv
  | list vs =>
    rcases h.uniform vs rfl with hall | ⟨v, rfl, -⟩
    · cases vs with
      | nil => exact .emptyList
      | cons v vs =>
        have hv := hliteral v List.mem_cons_self
        rw [hall v List.mem_cons_self] at hv
        cases hv
    · exact .list (hfixed v List.mem_cons_self)

def slotChars (v : Value) : List Char :=
  optionChars " ".toList (fun v => v.sql.toList) v.written?

def operandChars : Operand → List Char
  | .none => []
  | .single v => slotChars v
  | .range low high => slotChars low ++ optionChars " AND ".toList (fun v => v.sql.toList) high
  | .list [] => []
  | .list (v :: _) => " (".toList ++ (v.sql.toList ++ [')'])

theorem Value.Written.sql_ne_empty {v : Value} (h : v.Written) : v.sql ≠ "" := by
  obtain ⟨c, cs, hcs, -⟩ := h.exists_start
  intro he
  rw [he] at hcs
  cases hcs

theorem filter_words_cons {word : String} (h : word ≠ "") (words : List String) :
    (word :: words).filter (· ≠ "") = word :: words.filter (· ≠ "") :=
  List.filter_cons_of_pos (by simpa using h)

def spacedChars (words : List String) : List Char :=
  moreChars " ".toList String.toList (words.filter (· ≠ ""))

theorem spacedChars_cons {word : String} (h : word ≠ "") (words : List String) :
    spacedChars (word :: words) = " ".toList ++ (word.toList ++ spacedChars words) := by
  rw [spacedChars, filter_words_cons h, moreChars, List.flatMap_cons, List.append_assoc]
  rfl

theorem spacedChars_value {v : Value} (h : v.Fixed) (words : List String) :
    spacedChars (v.sql :: words) = slotChars v ++ spacedChars words := by
  cases h with
  | missing => rfl
  | written h =>
    have hslot : slotChars v = " ".toList ++ v.sql.toList := by cases h <;> rfl
    rw [spacedChars_cons h.sql_ne_empty, hslot, List.append_assoc]

theorem spacedChars_words {arity : Arity} {operand : Operand} (h : operand.Fixed arity) :
    spacedChars operand.words = operandChars operand := by
  have hnil : spacedChars [] = [] := rfl
  cases h with
  | none => rfl
  | single hv => rw [Operand.words, spacedChars_value hv, hnil, List.append_nil]; rfl
  | @range low high hlow hhigh =>
    cases high with
    | none => rw [Operand.words, spacedChars_value hlow]; rfl
    | some high =>
      rw [Operand.words, spacedChars_value hlow, spacedChars_cons (by decide),
        spacedChars_cons (hhigh high rfl).sql_ne_empty, hnil, List.append_nil]
      rfl
  | emptyList => rfl
  | @list v hv =>
    have hne : "(" ++ v.sql ++ ")" ≠ "" := by simp
    have hwords : (Operand.list [v]).words = ["(" ++ v.sql ++ ")"] := by
      rw [Operand.words, List.map_singleton, String.intercalate_singleton]
      exact List.cons_ne_nil _ _
    rw [hwords, spacedChars_cons hne, hnil, List.append_nil, String.toList_append,
      String.toList_append, List.append_assoc]
    rfl

theorem Comparison.toList_sql {c : Comparison} (h : c.operand.Fixed c.operator.arity) :
    c.sql.toList = c.column.text.toList ++
      (" ".toList ++ (c.operator.symbol.toList ++ operandChars c.operand)) := by
  have hcolumn : c.column.text ≠ "" := fun he => c.column.text_ne_nil (by rw [he]; rfl)
  have hsymbol : c.operator.symbol ≠ "" := by cases c.operator <;> decide
  rw [sql, filter_words_cons hcolumn, String.toList_intercalate, intercalate_map_cons,
    ← spacedChars_words h, ← spacedChars_cons hsymbol]
  rfl

/-! ### Where a value, an operand or a predicate ends -/

inductive StartsPredicate : List Char → Prop
  | bracket (r : List Char) : StartsPredicate ('(' :: r)
  | column {word : List Char} (hne : word ≠ []) (hword : ∀ c ∈ word, isColumnChar c = true)
      (r : List Char) : StartsPredicate (word ++ ' ' :: r)

inductive EndsPredicate : List Char → Prop
  | nil : EndsPredicate []
  | close (r : List Char) : EndsPredicate (')' :: r)
  | link (connective : Connective) {r : List Char} (h : StartsPredicate r) :
      EndsPredicate (' ' :: (connective.keyword.toList ++ ' ' :: r))

def EndsSlot (r : List Char) : Prop :=
  ∀ c cs, r = ' ' :: c :: cs → isValueStart c = false

theorem EndsPredicate.endsSlot {r : List Char} (h : EndsPredicate r) : EndsSlot r := by
  rintro c cs rfl
  generalize hr : ' ' :: c :: cs = r at h
  cases h with
  | nil => cases hr
  | close r => exact absurd (List.cons.inj hr).1 (by decide)
  | link connective h =>
    cases connective <;> cases hr <;> decide

theorem Function.exists_word (function : Function) :
    ∃ word, function.call.toList = word ++ ['(', ')'] ∧ ∀ c ∈ word, isColumnChar c = true := by
  cases function with
  | now => exact ⟨"NOW".toList, by decide, List.all_eq_true.mp (by decide)⟩
  | today => exact ⟨"TODAY".toList, by decide, List.all_eq_true.mp (by decide)⟩
  | currentUser => exact ⟨"CURRENT_USER".toList, by decide, List.all_eq_true.mp (by decide)⟩

theorem Value.Written.not_startsPredicate {v : Value} (h : v.Written) (r : List Char) :
    ¬StartsPredicate (v.sql.toList ++ r) := by
  intro hstarts
  generalize hs : v.sql.toList ++ r = s at hstarts
  cases hstarts with
  | bracket u =>
    obtain ⟨c, cs, hcs, hc⟩ := h.exists_start
    rw [hcs] at hs
    rw [(List.cons.inj hs).1] at hc
    exact absurd hc (by decide)
  | @column word hne hword u =>
    cases h with
    | param h =>
      -- A placeholder begins with a brace.
      rw [param_append] at hs
      exact (stops_cons (by decide) _).ne_append hne hword hs
    | call function =>
      -- After the word of a call stands a bracket, after a column a space.
      obtain ⟨call, hcall, hcallWord⟩ := function.exists_word
      rw [sql, hcall, List.append_assoc] at hs
      have hrest := (append_inj_of_stops hcallWord hword (stops_cons (by decide) _)
        (stops_cons (by decide) u) hs).2
      exact absurd (List.cons.inj hrest).1 (by decide)

theorem Value.readable_fixed :
    Readable (fun v : Value => v.sql.toList) Fixed (Stops isValueStart) := by
  have hwritten : ∀ {v : Value} {r r' : List Char}, v.Written → Stops isValueStart r →
      r ≠ v.sql.toList ++ r' := by
    rintro v r r' hv hr rfl
    obtain ⟨c, cs, hcs, hc⟩ := hv.exists_start
    rw [hcs] at hr
    exact absurd hc (by simp [hr c rfl])
  intro v v' r r' hv hv' hr hr' he
  cases hv with
  | missing =>
    cases hv' with
    | missing => exact ⟨rfl, he⟩
    | written hv' => exact absurd he (hwritten hv' hr)
  | written hv =>
    cases hv' with
    | missing => exact absurd he.symm (hwritten hv hr')
    | written hv' => exact readable hv hv' trivial trivial he

theorem readable_slot : Readable slotChars Value.Fixed EndsSlot := by
  have hwritten : ∀ {v : Value} {r r' : List Char}, v.Written → EndsSlot r →
      r ≠ " ".toList ++ (v.sql.toList ++ r') := by
    intro v r r' hv hr he
    obtain ⟨c, cs, hcs, hc⟩ := hv.exists_start
    rw [hcs] at he
    exact absurd hc (by simp [hr c _ he])
  have hvalues : Readable (fun v : Value => v.sql.toList) Value.Written EndsSlot :=
    Value.readable.weaken fun _ _ => trivial
  intro v v' r r' hv hv' hr hr' he
  obtain ⟨hfound, hrest⟩ := hvalues.option hwritten (fun _ => hv.written_of_mem)
    (fun _ => hv'.written_of_mem) hr hr' he
  exact ⟨Value.written?_inj hfound, hrest⟩

theorem EndsPredicate.ne_bound {r : List Char} (h : EndsPredicate r) {v : Value} (hv : v.Written)
    (r' : List Char) : r ≠ " AND ".toList ++ (v.sql.toList ++ r') := by
  intro he
  cases h with
  | nil => cases he
  | close r => exact absurd (List.cons.inj he).1 (by decide)
  | link connective h =>
    cases connective with
    | and =>
      have he : " AND ".toList ++ _ = " AND ".toList ++ (v.sql.toList ++ r') := he
      exact hv.not_startsPredicate r' (List.append_cancel_left he ▸ h)
    | or => cases he

theorem readable_bound : Readable
    (optionChars " AND ".toList fun v : Value => v.sql.toList) (fun high => ∀ v ∈ high, v.Written)
      EndsPredicate := by
  have hvalues : Readable (fun v : Value => v.sql.toList) Value.Written EndsPredicate :=
    Value.readable.weaken fun _ _ => trivial
  exact hvalues.option fun hv hr => hr.ne_bound hv _

theorem EndsPredicate.endsSlot_bound {r : List Char} (h : EndsPredicate r) (high : Option Value) :
    EndsSlot (optionChars " AND ".toList (fun v => v.sql.toList) high ++ r) := by
  cases high with
  | none => exact h.endsSlot
  | some v =>
    rintro c cs he
    cases he
    decide

theorem EndsPredicate.ne_list {r : List Char} (h : EndsPredicate r) (t : List Char) :
    r ≠ " (".toList ++ t := by
  intro he
  cases h with
  | nil => cases he
  | close r => exact absurd (List.cons.inj he).1 (by decide)
  | link connective _ => cases connective <;> cases he

theorem operandChars_inj {arity : Arity} {operand operand' : Operand} (h : operand.Fixed arity)
    (h' : operand'.Fixed arity) {r r' : List Char} (hr : EndsPredicate r) (hr' : EndsPredicate r')
    (he : operandChars operand ++ r = operandChars operand' ++ r') :
    operand = operand' ∧ r = r' := by
  cases h with
  | none =>
    cases h'
    exact ⟨rfl, he⟩
  | single hv =>
    cases h' with | single hv' => ?_
    obtain ⟨rfl, hrest⟩ := readable_slot hv hv' hr.endsSlot hr'.endsSlot he
    exact ⟨rfl, hrest⟩
  | @range low high hlow hhigh =>
    cases h' with | @range low' high' hlow' hhigh' => ?_
    rw [operandChars, operandChars, List.append_assoc, List.append_assoc] at he
    obtain ⟨rfl, hrest⟩ := readable_slot hlow hlow' (hr.endsSlot_bound high)
      (hr'.endsSlot_bound high') he
    obtain ⟨rfl, hend⟩ := readable_bound hhigh hhigh' hr hr' hrest
    exact ⟨rfl, hend⟩
  | emptyList =>
    cases h' with
    | emptyList => exact ⟨rfl, he⟩
    | list hv' => exact absurd he (hr.ne_list _)
  | list hv =>
    cases h' with
    | emptyList => exact absurd he.symm (hr'.ne_list _)
    | list hv' =>
      have hclose : ∀ r, Stops isValueStart (')' :: r) := fun _ => stops_cons (by decide) _
      rw [operandChars, operandChars] at he
      simp only [List.append_assoc, List.singleton_append] at he
      obtain ⟨rfl, hrest⟩ := Value.readable_fixed hv hv' (hclose r) (hclose r')
        (List.append_cancel_left he)
      exact ⟨rfl, (List.cons.inj hrest).2⟩

/-! ### Comparisons and chains -/

def Comparison.Fixed (c : Comparison) : Prop :=
  c.operand.Fixed c.operator.arity

theorem readable_symbol : Readable (fun operator : Operator => operator.symbol.toList)
    (fun _ => True) (Stops (· == '=')) := by
  have hmem : ∀ operator : Operator, operator ∈ Operator.all := by
    intro operator
    cases operator <;> decide
  -- Only a symbol of one sign goes on to another one.
  have hcode : ∀ operator ∈ Operator.all, ∀ operator' ∈ Operator.all,
      operator.symbol.toList <+: operator'.symbol.toList → operator = operator' ∨
        operator'.symbol.toList = operator.symbol.toList ++ ['='] := by decide
  apply readable_words
  intro operator operator' hprefix
  rcases hcode operator (hmem _) operator' (hmem _) hprefix with he | he
  · exact .inl he
  · exact .inr ⟨'=', [], he, by decide⟩

theorem stops_operandChars {arity : Arity} {operand : Operand} (h : operand.Fixed arity)
    {r : List Char} (hr : EndsPredicate r) : Stops (· == '=') (operandChars operand ++ r) := by
  rw [← spacedChars_words h, spacedChars]
  cases operand.words.filter (· ≠ "") with
  | nil =>
    cases hr with
    | nil => exact stops_nil _
    | close r => exact stops_cons (by decide) r
    | link connective h => exact stops_cons (by decide) _
  | cons word words => exact stops_cons (by decide) _

theorem Comparison.readable :
    Readable (fun c : Comparison => c.sql.toList) Fixed EndsPredicate := by
  have hspace : ∀ s, Stops isColumnChar (" ".toList ++ s) := fun _ => stops_cons (by decide) _
  intro c c' r r' hc hc' hr hr' he
  dsimp only at he
  rw [toList_sql hc, toList_sql hc'] at he
  simp only [List.append_assoc] at he
  obtain ⟨hcolumn, he⟩ := ColumnRef.readable trivial trivial (hspace _) (hspace _) he
  obtain ⟨hoperator, he⟩ := readable_symbol trivial trivial (stops_operandChars hc hr)
    (stops_operandChars hc' hr') (List.append_cancel_left he)
  cases c
  cases c'
  cases hcolumn
  cases hoperator
  obtain ⟨hoperand, hrest⟩ := operandChars_inj hc hc' hr hr' he
  cases hoperand
  exact ⟨rfl, hrest⟩

mutual

def Predicate.Fixed : Predicate → Prop
  | .compare c => c.Fixed
  | .group links => links.head?.map Link.connective = some .and ∧ linksFixed links

/-- In a group the first connective, which is not written, is always the same. -/
def linksFixed : List Link → Prop
  | [] => True
  | .mk _ p :: links => p.Fixed ∧ linksFixed links

end

theorem startsPredicate_sql {p : Predicate} (h : p.Fixed) (r : List Char) :
    StartsPredicate (p.sql.toList ++ r) := by
  match p, h with
  | .compare c, h =>
    rw [Predicate.sql, Comparison.toList_sql h, List.append_assoc]
    exact .column c.column.text_ne_nil (fun _ => ColumnRef.isColumnChar_of_mem) _
  | .group (.mk _ p :: links), _ =>
    rw [Predicate.sql, String.toList_append, String.toList_append, List.append_assoc,
      List.append_assoc]
    exact .bracket _

def EndsLinks (r : List Char) : Prop :=
  ∀ c ∈ r.head?, c = ')'

theorem EndsLinks.endsPredicate {r : List Char} (h : EndsLinks r) : EndsPredicate r := by
  cases r with
  | nil => exact .nil
  | cons c r =>
    cases h c rfl
    exact .close r

theorem group_append (connective : Connective) (p : Predicate) (links : List Link)
    (r : List Char) :
    (Predicate.group (.mk connective p :: links)).sql.toList ++ r =
      '(' :: (p.sql.toList ++ ((linksSql links).toList ++ ')' :: r)) := by
  simp [Predicate.sql, String.toList_append]

theorem linksSql_append (connective : Connective) (p : Predicate) (links : List Link)
    (r : List Char) :
    (linksSql (.mk connective p :: links)).toList ++ r =
      ' ' :: (connective.keyword.toList ++ ' ' ::
        (p.sql.toList ++ ((linksSql links).toList ++ r))) := by
  simp [linksSql, String.toList_append]

theorem compare_ne_bracket {c : Comparison} (h : c.Fixed) (r t : List Char) :
    (Predicate.compare c).sql.toList ++ r ≠ '(' :: t := by
  have hbracket : Stops isColumnChar ('(' :: t) := stops_cons (by decide) t
  rw [Predicate.sql, Comparison.toList_sql h, List.append_assoc]
  exact (hbracket.ne_append c.column.text_ne_nil fun _ => ColumnRef.isColumnChar_of_mem).symm

theorem endsPredicate_linksSql {links : List Link} (h : linksFixed links) {r : List Char}
    (hr : EndsLinks r) : EndsPredicate ((linksSql links).toList ++ r) := by
  match links, h with
  | [], _ => exact hr.endsPredicate
  | .mk connective p :: links, h =>
    rw [linksSql_append]
    exact .link connective (startsPredicate_sql h.1 _)

theorem endsLinks_close (r : List Char) : EndsLinks (')' :: r) := by
  rintro c ⟨⟩
  rfl

theorem EndsLinks.ne_link {r : List Char} (h : EndsLinks r) (t : List Char) : r ≠ ' ' :: t := by
  rintro rfl
  exact absurd (h ' ' rfl) (by decide)

theorem readable_connective : Readable
    (fun connective : Connective => connective.keyword.toList) (fun _ => True)
      (fun _ => True) := by
  apply readable_of_prefixFree
  intro connective connective'
  cases connective <;> cases connective' <;> decide

mutual

theorem Predicate.sql_inj : ∀ (p p' : Predicate) {r r' : List Char}, p.Fixed → p'.Fixed →
    EndsPredicate r → EndsPredicate r' → p.sql.toList ++ r = p'.sql.toList ++ r' →
    p = p' ∧ r = r'
  | .compare c, .compare c', r, r', h, h', hr, hr', he => by
    obtain ⟨rfl, hrest⟩ := Comparison.readable h h' hr hr' he
    exact ⟨rfl, hrest⟩
  | .compare c, .group (.mk connective' p' :: links'), r, r', h, h', hr, hr', he => by
    rw [group_append] at he
    exact absurd he (compare_ne_bracket h _ _)
  | .group (.mk connective p :: links), .compare c', r, r', h, h', hr, hr', he => by
    rw [group_append] at he
    exact absurd he.symm (compare_ne_bracket h' _ _)
  | .group (.mk connective p :: links), .group (.mk connective' p' :: links'), r, r',
    ⟨hfirst, hp, hlinks⟩, ⟨hfirst', hp', hlinks'⟩, hr, hr', he => by
    rw [group_append, group_append] at he
    obtain ⟨rfl, hrest⟩ := Predicate.sql_inj p p' hp hp'
      (endsPredicate_linksSql hlinks (endsLinks_close r))
      (endsPredicate_linksSql hlinks' (endsLinks_close r')) (List.cons.inj he).2
    obtain ⟨rfl, hend⟩ := linksSql_inj links links' hlinks hlinks' (endsLinks_close r)
      (endsLinks_close r') hrest
    cases hfirst
    cases hfirst'
    exact ⟨rfl, (List.cons.inj hend).2⟩

theorem linksSql_inj : ∀ (links links' : List Link) {r r' : List Char}, linksFixed links →
    linksFixed links' → EndsLinks r → EndsLinks r' →
    (linksSql links).toList ++ r = (linksSql links').toList ++ r' → links = links' ∧ r = r'
  | [], [], r, r', _, _, _, _, he => ⟨rfl, he⟩
  | [], .mk connective' p' :: links', r, r', _, _, hr, _, he => by
    rw [linksSql_append] at he
    exact absurd he (hr.ne_link _)
  | .mk connective p :: links, [], r, r', _, _, _, hr', he => by
    rw [linksSql_append] at he
    exact absurd he.symm (hr'.ne_link _)
  | .mk connective p :: links, .mk connective' p' :: links', r, r', ⟨hp, hlinks⟩,
    ⟨hp', hlinks'⟩, hr, hr', he => by
    rw [linksSql_append, linksSql_append] at he
    obtain ⟨rfl, hrest⟩ := readable_connective trivial trivial trivial trivial
      (List.cons.inj he).2
    obtain ⟨rfl, hrest'⟩ := Predicate.sql_inj p p' hp hp' (endsPredicate_linksSql hlinks hr)
      (endsPredicate_linksSql hlinks' hr') (List.cons.inj hrest).2
    obtain ⟨rfl, hend⟩ := linksSql_inj links links' hlinks hlinks' hr hr' hrest'
    exact ⟨rfl, hend⟩

end

end EndpointPreview
