import EndpointPreview.Toml.TextReader
/-!
TOML values and documents. A document grows one table, statement by statement.
-/

namespace EndpointPreview.Toml

def skipComment (s : List Char) : Tail s :=
  match s with
  | '#' :: r => ((Tail.dropWhile isPlain r).past '#').tail
  | s => .all s

def skipToEnd (s : List Char) : Tail s :=
  let t := skipSpace s
  t.and (skipComment t.val)

def skipLines : (s : List Char) → Tail s :=
  Rest.recurse fun s skipLines =>
    let t := skipToEnd s
    match newline t.val with
    | some r =>
      let r := t.andRest r
      (r.andTail (skipLines r)).tail
    | none => t

def listBody (item : Reader Value) : Reader (List Value) :=
  Rest.recurse fun s listBody =>
    match skipLines s with
    | ⟨[], _⟩ => none
    | ⟨c :: r, h⟩ =>
      if c = ']' then some ([], ⟨r, h⟩)
      else do
        let (value, r₁) ← item (c :: r)
        let r₁ : Rest s := Tail.andRest ⟨c :: r, h⟩ r₁
        match skipLines r₁.val with
        | ⟨[], _⟩ => none
        | ⟨d :: r₂, h₂⟩ =>
          let r₂ := r₁.and ⟨r₂, h₂⟩
          if d = ']' then return ([value], r₂)
          else if d = ',' then do
            let (values, r₃) ← listBody r₂
            return (value :: values, r₂.and r₃)
          else none

def assignment (item : Reader Value) : Reader Change := fun s => do
  let ((path, key), r₁) ← fullKey s
  let r₂ ← char '=' r₁.val
  let t₂ := skipSpace r₂.val
  let (value, r₃) ← item t₂.val
  let t₃ := skipSpace r₃.val
  return (Change.assignPath path key value, ((r₁.and r₂).andTail (t₂.andRest r₃).tail).andTail t₃)

def inlineBody (item : Reader Value) : (s : List Char) → Entries → Option (Entries × Rest s) :=
  Rest.recurse fun s inlineBody entries => do
    let (change, r) ← assignment item s
    let entries ← change .inline entries
    match r with
    | ⟨[], _⟩ => none
    | ⟨c :: r, h⟩ =>
      let after : Rest s := Rest.and ⟨c :: r, h⟩ (.afterFirst c r)
      if c = '}' then return (entries, after)
      else if c = ',' then
        let (entries, r') ← inlineBody after entries
        return (entries, after.and r')
      else none

def inlineTable (item : Reader Value) : Reader Entries := fun s =>
  match skipSpace s with
  | ⟨[], _⟩ => none
  | ⟨c :: r, h⟩ =>
    if c = '}' then some ([], ⟨r, h⟩)
    else do
      let (entries, r') ← inlineBody item (c :: r) []
      return (entries, Tail.andRest ⟨c :: r, h⟩ r')

def value (depth : Nat) : Reader Value := fun s =>
  match depth, s with
  | depth + 1, '[' :: r => do
    let (values, r') ← listBody (value depth) r
    return (.list values, r'.past '[')
  | depth + 1, '{' :: r => do
    let (entries, r') ← inlineTable (value depth) r
    return (.table .inline entries, r'.past '{')
  | _, s =>
    match text s with
    | some (t, r) => some (.text t, r)
    | none => (scalar s).map fun (kind, r) => (.scalar kind, r)

def lineEnd (s : List Char) : Option (Tail s) :=
  let t := skipToEnd s
  match newline t.val with
  | some r => some (t.andRest r).tail
  | none => if t.val = [] then some t else none

/-- A header: whether it is a repeated one, and its keys. -/
def header : Reader (Bool × List String × String) := fun s => do
  let repeated := s.take 2 = ['[', '[']
  let r₁ ← (if repeated then word ['[', '['] else char '[') s
  let ((path, key), r₂) ← fullKey r₁.val
  let r₃ ← (if repeated then word [']', ']'] else char ']') r₂.val
  return ((decide repeated, path, key), (r₁.and r₂).and r₃)

structure Draft where
  current : List String
  root : Entries

def statement (draft : Draft) : Reader Draft := fun s =>
  match s with
  | [] => none
  | c :: r =>
    if c = '[' then do
      let ((repeated, path, key), r₁) ← header (c :: r)
      let t ← lineEnd r₁.val
      let opened := if repeated then Change.openElement key else Change.openTable key
      let root ← opened.along false path .header draft.root
      return (⟨path ++ [key], root⟩, r₁.andTail t)
    else if c = '#' ∨ c = '\n' ∨ c = '\r' then do
      let t := skipComment (c :: r)
      match newline t.val with
      | some r₁ => return (draft, t.andRest r₁)
      | none => if t.val = [] then return (draft, (Tail.none r).past c) else none
    else do
      let (change, r₁) ← assignment (value greatestDepth) (c :: r)
      let t ← lineEnd r₁.val
      let root ← change.along false draft.current .header draft.root
      return (⟨draft.current, root⟩, r₁.andTail t)

def statements : (s : List Char) → Draft → Option Entries :=
  Rest.recurse fun s statements draft =>
    match skipSpace s with
    | ⟨[], _⟩ => some draft.root
    | ⟨c :: r, h⟩ => do
      let (draft, r') ← statement draft (c :: r)
      statements (Tail.andRest ⟨c :: r, h⟩ r') draft

def document (s : String) : Option Entries :=
  match s.toList with
  | '\ufeff' :: cs => statements cs ⟨[], []⟩
  | cs => statements cs ⟨[], []⟩

end EndpointPreview.Toml
