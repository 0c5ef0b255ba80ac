import AccessPolicy.Json.Scan

/-! Passing over a JSON value that nothing is read from. Nesting has no limit here, so the open
containers are a list and not a chain of calls. Numbers may be of any size and escapes may be halves
of pairs, but the grammar is checked. -/

namespace AccessPolicy.Json

/-- An open container. -/
inductive Container where
  | list
  | object
deriving DecidableEq, Repr

/-- Where in a value the text stands. -/
inductive Place where
  /-- Before a value. -/
  | value
  /-- After an opening bracket. -/
  | opened
  /-- After a value. -/
  | closed
deriving DecidableEq, Repr

/-- `opened` comes before `value` at the same character. -/
def Place.rank : Place → Nat
  | opened => 1
  | _ => 0

/-- Past the colon of an entry. -/
def takeColon (s : List Char) : Except ReadError (Rest s) :=
  match h : skipBlank s with
  | [] => .error .endInObject
  | c :: r => if c = ':' then .ok ⟨r, length_lt_of_skipBlank h⟩ else .error .expectedColon

theorem length_le_of_skipBlank_of_lt {s r r' : List Char} {c : Char} (h : skipBlank s = c :: r)
    (h' : r'.length < r.length) : r'.length ≤ s.length :=
  Nat.le_of_lt (Nat.lt_trans h' (length_lt_of_skipBlank h))

/-- Past a key and its colon. -/
def passKey (s : List Char) : Except ReadError (Rest s) :=
  match h : skipBlank s with
  | [] => .error .endInObject
  | c :: r =>
    if c = '"' then do
      let ⟨r', h'⟩ ← passString r
      let rest ← takeColon r'
      .ok (rest.after (length_le_of_skipBlank_of_lt h h'))
    else .error .keyNotString

/-- Past a value that starts with this character and is no container. -/
def passScalar (c : Char) (r : List Char) : Except ReadError (Tail r) :=
  match c with
  | 'n' => takeWord "ull".toList r
  | 't' => takeWord "rue".toList r
  | 'f' => takeWord "alse".toList r
  | '"' => do
    let ⟨r', h⟩ ← passString r
    .ok ⟨r', Nat.le_of_lt h⟩
  | c =>
    if c = '-' ∨ c.isDigit then do
      let (_, ⟨r', h⟩) ← takeNumberText .invalidNumber (c :: r)
      .ok ⟨r', Nat.le_of_lt_succ h⟩
    else .error .expectedValue

/-- What is left after the outermost value that is open or ahead: `place` says what comes next
inside the innermost of the open containers. -/
def skip (place : Place) (stack : List Container) (s : List Char) : Except ReadError (Tail s) :=
  match place with
  | .value =>
    match h : skipBlank s with
    | [] => .error .endInValue
    | '[' :: r => do
      let ⟨r', h'⟩ ← skip .opened (.list :: stack) r
      .ok ⟨r', by have := length_lt_of_skipBlank h; omega⟩
    | '{' :: r => do
      let ⟨r', h'⟩ ← skip .opened (.object :: stack) r
      .ok ⟨r', by have := length_lt_of_skipBlank h; omega⟩
    | c :: r => do
      let ⟨r', h'⟩ ← passScalar c r
      have hlt : r'.length < s.length := Nat.lt_of_le_of_lt h' (length_lt_of_skipBlank h)
      let ⟨r'', h''⟩ ← skip .closed stack r'
      .ok ⟨r'', by omega⟩
  | .opened =>
    match stack with
    | [] => skip .value [] s
    | .list :: outer =>
      match h : skipBlank s with
      | [] => .error .endInList
      | c :: r =>
        if c = ']' then do
          let ⟨r', h'⟩ ← skip .closed outer r
          .ok ⟨r', by have := length_lt_of_skipBlank h; omega⟩
        else skip .value (.list :: outer) s
    | .object :: outer =>
      match h : skipBlank s with
      | [] => .error .endInObject
      | c :: r =>
        if c = '}' then do
          let ⟨r', h'⟩ ← skip .closed outer r
          .ok ⟨r', by have := length_lt_of_skipBlank h; omega⟩
        else do
          let ⟨r', h'⟩ ← passKey s
          let ⟨r'', h''⟩ ← skip .value (.object :: outer) r'
          .ok ⟨r'', by omega⟩
  | .closed =>
    match stack with
    | [] => .ok ⟨s, Nat.le_refl _⟩
    | .list :: outer =>
      match h : skipBlank s with
      | [] => .error .endInList
      | c :: r =>
        if c = ',' then do
          let ⟨r', h'⟩ ← skip .value (.list :: outer) r
          .ok ⟨r', by have := length_lt_of_skipBlank h; omega⟩
        else if c = ']' then do
          let ⟨r', h'⟩ ← skip .closed outer r
          .ok ⟨r', by have := length_lt_of_skipBlank h; omega⟩
        else .error .expectedListCommaOrEnd
    | .object :: outer =>
      match h : skipBlank s with
      | [] => .error .endInObject
      | c :: r =>
        if c = ',' then do
          let ⟨r', h'⟩ ← passKey r
          have hlt : r'.length < s.length := Nat.lt_trans h' (length_lt_of_skipBlank h)
          let ⟨r'', h''⟩ ← skip .value (.object :: outer) r'
          .ok ⟨r'', by omega⟩
        else if c = '}' then do
          let ⟨r', h'⟩ ← skip .closed outer r
          .ok ⟨r', by have := length_lt_of_skipBlank h; omega⟩
        else .error .expectedObjectCommaOrEnd
termination_by (s.length, place.rank)
decreasing_by
  all_goals first
    | exact Prod.Lex.left _ _ (length_lt_of_skipBlank h)
    | exact Prod.Lex.left _ _ (by assumption)
    | exact Prod.Lex.right _ (by decide)

/-- Past a value of any kind. -/
def skipValue (s : List Char) : Except ReadError (Tail s) := skip .value [] s

end AccessPolicy.Json
