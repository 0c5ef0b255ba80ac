import AccessPolicy.Text.Digit
import AccessPolicy.Toml
import AccessPolicy.Toml.Blank

/-! The four kinds of TOML strings: basic ones in double quotes have escapes, literal ones in single
quotes have none, and each kind may span several lines between threefold quotes. -/

namespace AccessPolicy.Toml

/-! ### Escapes -/

/-- The character whose code is written in `count` hexadecimal digits. -/
def takeCode (count : Nat) (s : List Char) : Option (Char × Tail s) := do
  let digits := s.take count
  let values ← digits.mapM hexValue?
  let code := digitsValueIn 16 digits
  if values.length = count ∧ code.isValidChar then
    some (Char.ofNat code, ⟨s.drop count, by simp⟩)
  else none

/-- The character that a letter after a backslash stands for. -/
def simpleEscape? (c : Char) : Option Char :=
  match c with
  | 'b' => some '\x08'
  | 'e' => some '\x1b'
  | 'f' => some '\x0c'
  | 'n' => some '\n'
  | 'r' => some '\r'
  | 't' => some '\t'
  | '"' => some '"'
  | '\\' => some '\\'
  | _ => none

/-- How many hexadecimal digits follow a letter after a backslash. -/
def codeLength? (c : Char) : Option Nat :=
  match c with
  | 'x' => some 2
  | 'u' => some 4
  | 'U' => some 8
  | _ => none

/-- The character of an escape, past its backslash. -/
def takeEscape (s : List Char) : Step Char s :=
  match s with
  | [] => none
  | c :: r =>
    match simpleEscape? c with
    | some d => some (d, ⟨r, length_lt_succ r⟩)
    | none => do
      let count ← codeLength? c
      let (d, rest) ← takeCode count r
      some (d, rest.after (length_lt_succ r))

/-! ### Strings in one line -/

/-- The characters of a literal string, through its closing quote. -/
def takeLiteral : (s : List Char) → Step (List Char) s
  | [] => none
  | '\'' :: r => some ([], ⟨r, Nat.lt_succ_self _⟩)
  | c :: r =>
    if isPlain c then do
      let (cs, rest) ← takeLiteral r
      some (c :: cs, rest.after (Nat.le_succ _))
    else none

/-- A string on one line in which there are escapes, past its opening quote. -/
def takeBasic (s : List Char) : Step (List Char) s :=
  match s with
  | [] => none
  | '"' :: r => some ([], ⟨r, Nat.lt_succ_self _⟩)
  | '\\' :: r => do
    let (c, ⟨r', h⟩) ← takeEscape r
    let (cs, rest) ← takeBasic r'
    some (c :: cs, rest.after (Nat.le_succ_of_le (Nat.le_of_lt h)))
  | c :: r =>
    if isPlain c then do
      let (cs, rest) ← takeBasic r
      some (c :: cs, rest.after (Nat.le_succ _))
    else none
termination_by s.length
decreasing_by
  all_goals simp_wf
  all_goals omega

/-! ### Strings over several lines -/

/-- The end of a string over several lines: three quotes, where up to two quotes before them belong
to the string. -/
def takeClosing? (quote : Char) (s : List Char) : Step (List Char) s :=
  match s with
  | a :: b :: c :: r =>
    if a = quote ∧ b = quote ∧ c = quote then
      let more := (r.take 2).takeWhile (· == quote)
      some (more, ⟨r.drop more.length, by simp; omega⟩)
    else none
  | _ => none

/-- A character of a string over several lines, or one of its line ends as it is written. -/
def takePlain (s : List Char) : Step (List Char) s :=
  match s with
  | [] => none
  | c :: r =>
    if isPlain c then some ([c], ⟨r, Nat.lt_succ_self _⟩)
    else do
      let ⟨r', h⟩ ← takeNewline? (c :: r)
      some (if c = '\r' then ['\r', '\n'] else [c], ⟨r', h⟩)

/-- A line end after a backslash, with all spaces and line ends around it; they do not belong to the
string. -/
def takeFolded? (s : List Char) : Option (Rest s) :=
  match skipSpace s with
  | ⟨r, h⟩ => do
    let ⟨r', h'⟩ ← takeNewline? r
    some ((skipLines r').after (Nat.lt_of_lt_of_le h' h))
where
  /-- A text without the spaces and line ends at its front. -/
  skipLines (s : List Char) : Tail s :=
    match skipSpace s with
    | ⟨r, h⟩ =>
      match takeNewline? r with
      | some ⟨r', h'⟩ => (skipLines r').within (Nat.le_trans (Nat.le_of_lt h') h)
      | none => ⟨r, h⟩
  termination_by s.length
  decreasing_by exact Nat.lt_of_lt_of_le h' h

/-- A piece of a basic string over several lines: an escape, a folded line end, or what stands for
itself. -/
def takePiece (s : List Char) : Step (List Char) s :=
  match s with
  | '\\' :: r =>
    match takeFolded? r with
    | some rest => some ([], rest.after (Nat.le_succ _))
    | none => do
      let (c, rest) ← takeEscape r
      some ([c], rest.after (Nat.le_succ _))
  | s => takePlain s

/-- The characters of a string over several lines whose pieces `piece` reads, through its closing
quotes. -/
def takeLines (quote : Char) (piece : (s : List Char) → Step (List Char) s) (s : List Char) :
    Step (List Char) s :=
  match takeClosing? quote s with
  | some closing => some closing
  | none => do
    let (cs, ⟨r, h⟩) ← piece s
    let (more, rest) ← takeLines quote piece r
    some (cs ++ more, rest.after (Nat.le_of_lt h))
termination_by s.length

/-- A string over several lines after its opening quotes; a line end right there does not belong to
it. -/
def takeBlock (quote : Char) (piece : (s : List Char) → Step (List Char) s) (s : List Char) :
    Step (List Char) s :=
  match takeNewline? s with
  | some ⟨r, h⟩ => do
    let (cs, rest) ← takeLines quote piece r
    some (cs, rest.after (Nat.le_of_lt h))
  | none => takeLines quote piece s

/-- A string in any of its four forms. -/
def takeQuoted (s : List Char) : Step String s :=
  match s with
  | '"' :: '"' :: '"' :: r => finish (takeBlock '"' takePiece r) (by simp; omega)
  | '\'' :: '\'' :: '\'' :: r => finish (takeBlock '\'' takePlain r) (by simp; omega)
  | '"' :: r => finish (takeBasic r) (Nat.le_succ _)
  | '\'' :: r => finish (takeLiteral r) (Nat.le_succ _)
  | _ => none
where
  /-- The characters as a string, past an opening quote. -/
  finish {s r : List Char} (step : Step (List Char) r) (h : r.length ≤ s.length) : Step String s :=
    step.map fun (cs, rest) => (String.ofList cs, rest.after h)

end AccessPolicy.Toml
