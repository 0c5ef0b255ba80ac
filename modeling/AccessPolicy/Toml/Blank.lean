import AccessPolicy.Text.Rest

/-! What stands between the parts of a TOML text: spaces, line ends and comments. -/

namespace AccessPolicy.Toml

/-- Whether a character may stand in a comment or between the quotes of a string. Control characters
other than the tabulator may not. -/
def isPlain (c : Char) : Bool := c == '\t' || (' ' ≤ c && c != '\x7f')

/-- What may stand between the tokens of a line. -/
def isSpace (c : Char) : Bool := c == ' ' || c == '\t'

/-- A text past the blanks that stay on the line. -/
def skipSpace (s : List Char) : Tail s :=
  ⟨s.dropWhile isSpace, (List.dropWhile_sublist _).length_le⟩

/-- A line end, which is a line feed with or without a carriage return before it. -/
def takeNewline? : (s : List Char) → Option (Rest s)
  | '\n' :: r => some ⟨r, length_lt_succ r⟩
  | '\r' :: '\n' :: r => some ⟨r, by simp only [List.length_cons]; omega⟩
  | _ => none

/-- What is left after the text of a comment: nothing, or the end of its line and more. -/
def skipComment? : (s : List Char) → Option (Tail s)
  | [] => some (.all [])
  | c :: r =>
    if isPlain c then do
      let rest ← skipComment? r
      some (rest.within (length_le_succ r))
    else if (takeNewline? (c :: r)).isSome then some (.all (c :: r))
    else none

/-- What is left after spaces, line ends and comments. -/
def skipBlank? (s : List Char) : Option (Tail s) :=
  match skipSpace s with
  | ⟨[], _⟩ => some ⟨[], Nat.zero_le _⟩
  | ⟨c :: r, hr⟩ =>
    if c = '#' then do
      let ⟨r', h'⟩ ← skipComment? r
      let rest ← skipBlank? r'
      some (rest.within (Nat.le_trans h' (Nat.le_of_lt hr)))
    else
      match takeNewline? (c :: r) with
      | some ⟨r', h'⟩ => do
        let rest ← skipBlank? r'
        some (rest.within (Nat.le_trans (Nat.le_of_lt h') hr))
      | none => some ⟨c :: r, hr⟩
termination_by s.length
decreasing_by
  · exact Nat.lt_of_le_of_lt h' hr
  · exact Nat.lt_of_lt_of_le h' hr

/-- The end of a line that may hold a comment; the end of the text ends its last line. -/
def endLine? (s : List Char) : Option (Tail s) :=
  match skipSpace s with
  | ⟨[], _⟩ => some ⟨[], Nat.zero_le _⟩
  | ⟨c :: r, hr⟩ =>
    if c = '#' then do
      let ⟨r', h'⟩ ← skipComment? r
      some ⟨r', Nat.le_trans h' (Nat.le_of_lt hr)⟩
    else do
      let ⟨r', h'⟩ ← takeNewline? (c :: r)
      some ⟨r', Nat.le_trans (Nat.le_of_lt h') hr⟩

end AccessPolicy.Toml
