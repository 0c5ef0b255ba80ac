import AccessPolicy.Toml.Quoted

/-! TOML keys: parts with dots between them, each bare or quoted. -/

namespace AccessPolicy.Toml

/-- A key: the names of the tables on the way, and its own name in the last of them. -/
structure Key where
  path : List String
  name : String
deriving DecidableEq, Repr

/-- The number of names that a key has before its last one, at most. -/
def maxPathLength : Nat := 79

/-- The characters of a name without quotes. -/
def isBare (c : Char) : Bool := c.isAlphanum || c == '-' || c == '_'

/-- One name of a key, with or without quotes. -/
def takeName (s : List Char) : Step String s :=
  match s with
  | '"' :: r => takeQuoted.finish (takeBasic r) (length_le_succ r)
  | '\'' :: r => takeQuoted.finish (takeLiteral r) (length_le_succ r)
  | [] => none
  | c :: r =>
    if isBare c then
      some (String.ofList (c :: r.takeWhile isBare),
        ⟨r.dropWhile isBare, Nat.lt_succ_of_le (List.dropWhile_sublist _).length_le⟩)
    else none

theorem length_lt_of_succ_le {s r r' r'' : List Char} (h : r.length < s.length)
    (h' : r'.length + 1 ≤ r.length) (h'' : r''.length ≤ r'.length) : r''.length < s.length := by
  omega

/-- The parts of a key, with spaces around the dots and after the key. -/
def takeNames (s : List Char) : Step (List String) s := do
  let (name, ⟨r, h⟩) ← takeName s
  match skipSpace r with
  | ⟨[], h'⟩ => some ([name], ⟨[], Nat.lt_of_le_of_lt h' h⟩)
  | ⟨c :: r', h'⟩ =>
    if c = '.' then do
      let ⟨r'', h''⟩ := skipSpace r'
      have hlt : r''.length < s.length := length_lt_of_succ_le h h' h''
      let (names, rest) ← takeNames r''
      some (name :: names, rest.after (Nat.le_of_lt hlt))
    else some ([name], ⟨c :: r', Nat.lt_of_le_of_lt h' h⟩)
termination_by s.length

/-- A key: names with dots between them, not too many. -/
def takeKey (s : List Char) : Step Key s := do
  let (names, rest) ← takeNames s
  let name ← names.getLast?
  if names.length ≤ maxPathLength + 1 then some (⟨names.dropLast, name⟩, rest) else none

end AccessPolicy.Toml
