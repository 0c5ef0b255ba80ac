import AccessPolicy.Toml.Item

/-! TOML documents: a text is a list of statements, each of which adds to the table of the document.
-/

namespace AccessPolicy.Toml

/-- A line of a document. -/
inductive Statement where
  /-- Opens a table. -/
  | table (key : Key)
  /-- Opens one more table of an array. -/
  | item (key : Key)
  /-- Adds an entry to the table that was opened last. -/
  | entry (key : Key) (value : Toml)
deriving Repr

/-! ### Reading statements -/

theorem length_drop_lt {s r r' : List Char} (n : Nat) (h' : r'.length < r.length)
    (h : r.length ≤ s.length) : (r'.drop n).length < s.length := by
  rw [List.length_drop]
  omega

/-- A header after its opening brackets, through the closing ones. -/
def takeHeader (brackets : Nat) (s : List Char) : Step Key s := do
  let ⟨r, h⟩ := skipSpace s
  let (key, ⟨r', h'⟩) ← takeKey r
  if r'.take brackets = List.replicate brackets ']' then
    some (key, ⟨r'.drop brackets, length_drop_lt brackets h' h⟩)
  else none

/-- A key with its value, in one line but for the parts of the value. -/
def takeEntry (s : List Char) : Step Statement s := do
  match ← takeKey s with
  | (key, ⟨'=' :: r, h⟩) => do
    let ⟨r', h'⟩ := skipSpace r
    let (value, rest) ← takeValue nestingLimit r'
    some (.entry key value, rest.after (by simp at h; omega))
  | _ => none

/-- One header or entry. -/
def takeStatement (s : List Char) : Step Statement s :=
  match s with
  | '[' :: '[' :: r =>
    (takeHeader 2 r).map fun (key, rest) => (.item key, rest.after (by simp; omega))
  | '[' :: r => (takeHeader 1 r).map fun (key, rest) => (.table key, rest.after (length_le_succ r))
  | s => takeEntry s

/-- All statements of a document, with at most one on a line. -/
def statements? (s : List Char) : Option (List Statement) := do
  match ← skipBlank? s with
  | ⟨[], _⟩ => some []
  | ⟨c :: r, h⟩ => do
    let (st, ⟨r', h'⟩) ← takeStatement (c :: r)
    let ⟨r'', h''⟩ ← endLine? r'
    have _hlt : r''.length < s.length := Nat.lt_of_le_of_lt h'' (Nat.lt_of_lt_of_le h' h)
    let rest ← statements? r''
    some (st :: rest)
termination_by s.length

/-! ### The table of a document -/

/-- A document while statements are read: its table, and the path to the table that was opened last.
-/
structure Draft where
  root : Table
  here : List String

namespace Draft

/-- The draft before the first statement. -/
def start : Draft := ⟨⟨.header, []⟩, []⟩

/-- The draft after one more statement. An entry goes to the table of the last header. -/
def add? (d : Draft) : Statement → Option Draft
  | .table key => (d.root.openTable? key).map (⟨·, key.path ++ [key.name]⟩)
  | .item key => (d.root.openItem? key).map (⟨·, key.path ++ [key.name]⟩)
  | .entry key value => (d.root.change? false (·.add? key value) d.here).map (⟨·, d.here⟩)

end Draft

/-- The character that may mark the beginning of a text; it does not belong to the document. -/
def byteOrderMark : Char := '\ufeff'

/-- The root table of a document, before which a byte order mark may stand. -/
def parse? (text : String) : Option Toml := do
  let s := text.toList
  let statements ← statements? (if s.head? = some byteOrderMark then s.tail else s)
  let d ← statements.foldlM Draft.add? .start
  some d.root.toToml

end AccessPolicy.Toml
