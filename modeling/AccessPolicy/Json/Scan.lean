import AccessPolicy.Binary64.Decimal
import AccessPolicy.Json.Error
import AccessPolicy.Text.Digit
import AccessPolicy.Text.Rest

/-! The pieces of JSON text: blanks, words, strings and numbers. Each reading step takes at least
one character, and returns what is left of the text with the proof that it is shorter. -/

namespace AccessPolicy.Json

/-- A step that reads a value from the front of a text. -/
abbrev Step (α : Type) (s : List Char) : Type := Except ReadError (α × Rest s)

/-- The characters that may stand between tokens. -/
def isBlank (c : Char) : Bool := c == ' ' || c == '\t' || c == '\n' || c == '\r'

/-- A text past its blanks. -/
def skipBlank (s : List Char) : List Char := s.dropWhile isBlank

theorem length_skipBlank_le (s : List Char) : (skipBlank s).length ≤ s.length :=
  (List.dropWhile_sublist _).length_le

theorem length_le_of_skipBlank {s t : List Char} (h : skipBlank s = t) : t.length ≤ s.length :=
  h ▸ length_skipBlank_le s

theorem length_lt_of_skipBlank {s r : List Char} {c : Char} (h : skipBlank s = c :: r) :
    r.length < s.length :=
  Nat.lt_of_lt_of_le (Nat.lt_succ_self _) (length_le_of_skipBlank h)

/-! ### Words -/

/-- A text past the letters of a word. -/
def takeWord : List Char → (s : List Char) →
    Except ReadError { r : List Char // r.length ≤ s.length }
  | [], s => .ok ⟨s, Nat.le_refl _⟩
  | _ :: _, [] => .error .endInValue
  | w :: word, c :: r =>
    if c = w then
      match takeWord word r with
      | .ok ⟨rest, h⟩ => .ok ⟨rest, Nat.le_succ_of_le h⟩
      | .error e => .error e
    else .error .expectedIdent

/-! ### Strings -/

/-- Four hexadecimal digits. A text of less than four bytes ends too early for them. -/
def takeHex4 (s : List Char) : Step Nat s :=
  match s with
  | a :: b :: c :: d :: r =>
    match hexValue? a, hexValue? b, hexValue? c, hexValue? d with
    | some a, some b, some c, some d =>
      .ok (((a * 16 + b) * 16 + c) * 16 + d, ⟨r, by simp; omega⟩)
    | _, _, _, _ => .error .invalidEscape
  | s => .error (if 4 ≤ (String.ofList s).utf8ByteSize then .invalidEscape else .endInString)

/-- The first of two codes that stand for one character. -/
def isLeadingSurrogate (n : Nat) : Bool := 0xD800 ≤ n && n ≤ 0xDBFF

/-- The second of two such codes. -/
def isTrailingSurrogate (n : Nat) : Bool := 0xDC00 ≤ n && n ≤ 0xDFFF

/-- The code of a second surrogate, which has to follow a first one. -/
def takeTrailingSurrogate (s : List Char) : Step Nat s :=
  match s with
  | [] | ['\\'] => .error .endInString
  | '\\' :: 'u' :: r => do
    let (n, rest) ← takeHex4 r
    if isTrailingSurrogate n then
      .ok (n, rest.after (by simp; omega))
    else .error .loneSurrogate
  | _ => .error .endOfHexEscape

/-- The character of a `u` escape: one code unit, or two that form a pair. -/
def takeCodeEscape (s : List Char) : Step Char s := do
  let (n, rest) ← takeHex4 s
  if isTrailingSurrogate n then .error .loneSurrogate
  else if isLeadingSurrogate n then
    let (m, rest') ← takeTrailingSurrogate rest.1
    .ok (Char.ofNat (0x10000 + (n - 0xD800) * 0x400 + (m - 0xDC00)),
      rest'.after (Nat.le_of_lt rest.2))
  else .ok (Char.ofNat n, rest)

/-- The character that a letter after a backslash stands for. -/
def simpleEscape? (c : Char) : Option Char :=
  match c with
  | '"' => some '"'
  | '\\' => some '\\'
  | '/' => some '/'
  | 'b' => some '\x08'
  | 'f' => some '\x0c'
  | 'n' => some '\n'
  | 'r' => some '\r'
  | 't' => some '\t'
  | _ => none

/-- The character of an escape, past its backslash. -/
def takeEscape (s : List Char) : Step Char s :=
  match s with
  | [] => .error .endInString
  | c :: r =>
    match simpleEscape? c with
    | some d => .ok (d, ⟨r, Nat.lt_succ_self _⟩)
    | none =>
      if c = 'u' then do
        let (d, rest) ← takeCodeEscape r
        .ok (d, rest.after (Nat.le_succ _))
      else .error .invalidEscape

/-- The characters of a string, after its opening quote and through its closing one. -/
def takeChars (s : List Char) : Step (List Char) s :=
  match s with
  | [] => .error .endInString
  | '"' :: r => .ok ([], ⟨r, Nat.lt_succ_self _⟩)
  | '\\' :: r => do
    let (c, ⟨r', h⟩) ← takeEscape r
    let (cs, rest) ← takeChars r'
    .ok (c :: cs, rest.after (Nat.le_succ_of_le (Nat.le_of_lt h)))
  | c :: r =>
    if c < ' ' then .error .controlCharacter
    else do
      let (cs, rest) ← takeChars r
      .ok (c :: cs, rest.after (Nat.le_succ _))
termination_by s.length
decreasing_by
  all_goals simp_wf
  all_goals omega

/-- A string, past its opening quote. -/
def takeString (s : List Char) : Step String s := do
  let (cs, rest) ← takeChars s
  .ok (String.ofList cs, rest)

/-- An escape in a string whose characters do not matter; its code may be half of a pair. -/
def passEscape (s : List Char) : Except ReadError (Rest s) :=
  match s with
  | [] => .error .endInString
  | c :: r =>
    if (simpleEscape? c).isSome then .ok ⟨r, Nat.lt_succ_self _⟩
    else if c = 'u' then do
      let (_, rest) ← takeHex4 r
      .ok (rest.after (Nat.le_succ _))
    else .error .invalidEscape

/-- What is left after a string whose characters do not matter, past its opening quote. -/
def passString (s : List Char) : Except ReadError (Rest s) :=
  match s with
  | [] => .error .endInString
  | '"' :: r => .ok ⟨r, Nat.lt_succ_self _⟩
  | '\\' :: r => do
    let ⟨r', h⟩ ← passEscape r
    let rest ← passString r'
    .ok (rest.after (Nat.le_succ_of_le (Nat.le_of_lt h)))
  | c :: r =>
    if c < ' ' then .error .controlCharacter
    else do
      let rest ← passString r
      .ok (rest.after (Nat.le_succ _))
termination_by s.length
decreasing_by
  all_goals simp_wf
  all_goals omega

/-! ### Numbers -/

/-- The parts of a number as it is written; digits stand in writing order. -/
structure NumberText where
  negative : Bool
  whole : List Char
  fraction : Option (List Char)
  exponent : Option Int
deriving Repr

/-- All digits at the start. -/
def takeDigits (s : List Char) : List Char × Tail s :=
  (s.takeWhile Char.isDigit, ⟨s.dropWhile Char.isDigit, (List.dropWhile_sublist _).length_le⟩)

/-- One digit or more; `atEnd` is the error where the text ends before them. -/
def takeSomeDigits (atEnd : ReadError) (s : List Char) : Step (List Char) s :=
  match s with
  | [] => .error atEnd
  | c :: r =>
    if c.isDigit then
      let (ds, rest) := takeDigits r
      .ok (c :: ds, ⟨rest.1, Nat.lt_succ_of_le rest.2⟩)
    else .error .invalidNumber

/-- The digits before the point; a zero stands there alone. -/
def takeWhole (atEnd : ReadError) (s : List Char) : Step (List Char) s := do
  let (ds, rest) ← takeSomeDigits atEnd s
  if ds.head? = some '0' ∧ ds.length ≠ 1 then .error .invalidNumber
  else .ok (ds, rest)

/-- The digits after a decimal point, if there is one; then there must be some. -/
def takeFraction (atEnd : ReadError) (s : List Char) :
    Except ReadError (Option (List Char) × Tail s) :=
  match s with
  | '.' :: r => do
    let (ds, rest) ← takeSomeDigits atEnd r
    .ok (some ds, ⟨rest.1, Nat.le_succ_of_le (Nat.le_of_lt rest.2)⟩)
  | s => .ok (none, ⟨s, Nat.le_refl _⟩)

/-- The value of an exponent, if there is one, with its sign; it must have digits. -/
def takeExponent (atEnd : ReadError) (s : List Char) :
    Except ReadError (Option Int × Tail s) :=
  match s with
  | c :: r =>
    if c = 'e' ∨ c = 'E' then
      match r with
      | '-' :: r => do
        let (ds, rest) ← takeSomeDigits atEnd r
        .ok (some (-(digitsValue ds : Int)), ⟨rest.1, by have := rest.2; simp; omega⟩)
      | '+' :: r => do
        let (ds, rest) ← takeSomeDigits atEnd r
        .ok (some (digitsValue ds : Int), ⟨rest.1, by have := rest.2; simp; omega⟩)
      | r => do
        let (ds, rest) ← takeSomeDigits atEnd r
        .ok (some (digitsValue ds : Int), ⟨rest.1, by have := rest.2; simp; omega⟩)
    else .ok (none, ⟨c :: r, Nat.le_refl _⟩)
  | [] => .ok (none, ⟨[], Nat.le_refl _⟩)

/-- The parts of a number after its sign; `atEnd` is the error where the text ends too early. -/
def takeUnsigned (atEnd : ReadError) (negative : Bool) (s : List Char) : Step NumberText s := do
  let (whole, ⟨r, h⟩) ← takeWhole atEnd s
  let (fraction, ⟨r', h'⟩) ← takeFraction atEnd r
  let (exponent, ⟨r'', h''⟩) ← takeExponent atEnd r'
  .ok (⟨negative, whole, fraction, exponent⟩, ⟨r'', by omega⟩)

/-- The parts of a number, which may start with a minus. -/
def takeNumberText (atEnd : ReadError) (s : List Char) : Step NumberText s :=
  match s with
  | '-' :: r => do
    let (text, rest) ← takeUnsigned atEnd true r
    .ok (text, rest.after (Nat.le_succ _))
  | s => takeUnsigned atEnd false s

/-- Appends digits to a significand while it stays below `2 ^ 64`, and counts those left over. -/
def gatherDigits (significand : Nat) : List Char → Nat × Nat
  | [] => (significand, 0)
  | d :: ds =>
    let next := significand * 10 + (d.toNat - '0'.toNat)
    if next < 2 ^ 64 then gatherDigits next ds else (significand, ds.length + 1)

/-- The floating-point number of a text: the significand holds the digits that fit 64 bits, and the
rest of the digits only move its exponent, or count for nothing after the point. -/
def NumberText.toBinary64? (text : NumberText) : Option Binary64 :=
  let (significand, left) := gatherDigits 0 text.whole
  let fraction := text.fraction.getD []
  let (significand, unused) := gatherDigits significand fraction
  let places : Int := (fraction.length : Int) - unused
  Binary64.ofDecimal text.negative significand (left - places + text.exponent.getD 0)

/-- The number that a text stands for: an integer where it has neither point nor exponent and fits
64 bits, without a sign or with it; a minus before zero makes it a floating-point number. -/
def NumberText.toNumber (text : NumberText) : Except ReadError Number :=
  let n := digitsValue text.whole
  let plain := text.fraction.isNone && text.exponent.isNone
  if plain && !text.negative && n < Nat.pow 2 64 then .ok (.int n)
  else if plain && text.negative && 0 < n && n ≤ Nat.pow 2 63 then .ok (.int (-n))
  else
    match text.toBinary64? with
    | some x => .ok (.float x)
    | none => .error .numberOutOfRange

/-- A number. An integer that does not fit 64 bits is read as a floating-point number. -/
def takeNumber (s : List Char) : Step Number s := do
  let (text, rest) ← takeNumberText .endInValue s
  let n ← text.toNumber
  .ok (n, rest)

end AccessPolicy.Json
