import AccessPolicy.Toml.Datetime
import AccessPolicy.Toml.Numeral
import AccessPolicy.Toml.Table

/-! Reading TOML values: strings, words, numbers, dates, arrays and tables in braces. Arrays and
tables in braces may spread over lines and end with a comma. -/

namespace AccessPolicy.Toml

/-- The number of arrays and tables in braces that may be nested in one another. -/
def nestingLimit : Nat := 80

/-! ### Values without quotes -/

/-- The characters of a value that is no string and no container. -/
def isAtom (c : Char) : Bool := !" \t\r\n,=#[]\x7b\x7d".toList.contains c

/-- Whether a text goes on with a word; a quote may stand in a word but does not start one. -/
def startsWord : List Char → Bool
  | [] => false
  | c :: _ => isAtom c && c != '"' && c != '\''

/-- The words at the front of a text, with the spaces between them. -/
def takeWords (s : List Char) : List Char × Tail s :=
  match hs : s.dropWhile isAtom with
  | [] => (s, ⟨[], Nat.zero_le _⟩)
  | c :: r =>
    have hle : (c :: r).length ≤ s.length := hs ▸ (List.dropWhile_sublist _).length_le
    let word := s.takeWhile isAtom
    let ⟨r', h'⟩ := skipSpace r
    have hlt : r'.length < s.length := Nat.lt_of_le_of_lt h' hle
    if isSpace c && startsWord r' then
      let (words, rest) := takeWords r'
      (word ++ c :: r.takeWhile isSpace ++ words, rest.within (Nat.le_of_lt hlt))
    else (word, ⟨c :: r, hle⟩)
termination_by s.length

/-- The value that a text without quotes stands for. -/
def atom? (s : List Char) : Option Toml :=
  if s = "true".toList then some (.boolean true)
  else if s = "false".toList then some (.boolean false)
  else if isDatetime s then some (.datetime (String.ofList s))
  else number? s

/-- A value without quotes. Words with spaces between them are one value, such as a date with a
time. -/
def takeAtom (s : List Char) : Step Toml s :=
  match s with
  | [] => none
  | c :: r => do
    let (text, rest) := takeWords r
    let v ← atom? (c :: text)
    some (v, rest.after (length_lt_succ r))

/-! ### Values with parts -/

/-- Parts with commas between them and perhaps after the last one, through the character `close`. -/
def takeParts {α : Type} (close : Char) (part : (s : List Char) → Step α s) (s : List Char) :
    Step (List α) s := do
  match ← skipBlank? s with
  | ⟨[], _⟩ => none
  | ⟨c :: r, h⟩ =>
    if c = close then some ([], ⟨r, h⟩)
    else do
      let (a, ⟨r', h'⟩) ← part (c :: r)
      match ← skipBlank? r' with
      | ⟨[], _⟩ => none
      | ⟨d :: r'', h''⟩ =>
        have hlt : r''.length < s.length := Nat.lt_trans h'' (Nat.lt_of_lt_of_le h' h)
        if d = close then some ([a], ⟨r'', hlt⟩)
        else if d = ',' then do
          let (as, rest) ← takeParts close part r''
          some (a :: as, rest.after (Nat.le_of_lt hlt))
        else none
termination_by s.length

/-- A key and its value in braces; they may stand in different lines. -/
def takePair (value : (s : List Char) → Step Toml s) (s : List Char) : Step (Key × Toml) s := do
  let (key, ⟨r, h⟩) ← takeKey s
  match ← skipBlank? r with
  | ⟨'=' :: r', h'⟩ => do
    let ⟨r'', h''⟩ ← skipBlank? r'
    let (v, rest) ← value r''
    some ((key, v), rest.after (by simp at h'; omega))
  | _ => none

/-- A value, where `room` arrays and tables in braces may still be nested. -/
def takeValue (room : Nat) (s : List Char) : Step Toml s :=
  match s with
  | [] => none
  | '[' :: r =>
    match room with
    | 0 => none
    | room + 1 => do
      let (items, rest) ← takeParts ']' (takeValue room) r
      some (.array items, rest.after (length_le_succ r))
  | '{' :: r =>
    match room with
    | 0 => none
    | room + 1 => do
      let (pairs, rest) ← takeParts '}' (takePair (takeValue room)) r
      let t ← Table.ofInline? pairs
      some (t.toToml, rest.after (length_le_succ r))
  | c :: r =>
    if c = '"' ∨ c = '\'' then (takeQuoted (c :: r)).map fun (text, rest) => (.string text, rest)
    else takeAtom (c :: r)

end AccessPolicy.Toml
