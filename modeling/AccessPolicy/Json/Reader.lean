import AccessPolicy.Json.Skip

/-! Readers: what is wanted of a JSON document, told once for values and for text. A reader takes a
value apart, or reads text from the front without building the value first, so the first fault in
document order is the one reported. Readers of lists, maps and records are made from the readers of
their parts. -/

namespace AccessPolicy.Json

/-- How to read an `α` from a value, and from text where `room` containers may still be nested. -/
structure Reader (α : Type) where
  ofValue : Json → Except ReadError α
  ofText : (room : Nat) → (s : List Char) → Step α s

/-- The number of containers that may be nested in one another. -/
def nestingLimit : Nat := 127

/-- The room that is left inside a container. -/
def enter : Nat → Except ReadError Nat
  | 0 => .error .nestingTooDeep
  | room + 1 => .ok room

/-- The error for a text, without blanks at its front, that starts none of what is wanted. -/
def wrongType (wanted : String) : List Char → ReadError
  | [] => .endInValue
  | 'n' :: r => ofWord "ull".toList r .null
  | 't' :: r => ofWord "rue".toList r (.bool true)
  | 'f' :: r => ofWord "alse".toList r (.bool false)
  | '"' :: r =>
    match takeString r with
    | .ok (s, _) => .invalidType (.string s) wanted
    | .error e => e
  | '[' :: _ => .invalidType .sequence wanted
  | '{' :: _ => .invalidType .map wanted
  | c :: r =>
    if c = '-' ∨ c.isDigit then
      match takeNumber (c :: r) with
      | .ok (n, _) => .invalidType (.number n) wanted
      | .error e => e
    else .expectedValue
where
  /-- The error for a word, which may itself be misspelt. -/
  ofWord (word r : List Char) (found : Found) : ReadError :=
    match takeWord word r with
    | .ok _ => .invalidType found wanted
    | .error e => e

/-! ### Containers in text -/

section Text

variable {α σ : Type}

/-- The items of a list after its first one, through the closing bracket. -/
def moreItems (item : (s : List Char) → Step α s) (s : List Char) : Step (List α) s :=
  match h : skipBlank s with
  | [] => .error .endInList
  | c :: r =>
    if c = ']' then .ok ([], ⟨r, length_lt_of_skipBlank h⟩)
    else if c = ',' then
      match h' : skipBlank r with
      | [] => .error .endInValue
      | ']' :: _ => .error .trailingComma
      | r' => do
        let (a, ⟨r'', h''⟩) ← item r'
        have hlt : r''.length < s.length :=
          Nat.lt_trans (Nat.lt_of_lt_of_le h'' (length_le_of_skipBlank h'))
            (length_lt_of_skipBlank h)
        let (rest, t) ← moreItems item r''
        .ok (a :: rest, t.after (Nat.le_of_lt hlt))
    else .error .expectedListCommaOrEnd
termination_by s.length

/-- The items of a list, after its opening bracket and through the closing one. -/
def items (item : (s : List Char) → Step α s) (s : List Char) : Step (List α) s :=
  match h : skipBlank s with
  | [] => .error .endInList
  | ']' :: r => .ok ([], ⟨r, length_lt_of_skipBlank h⟩)
  | r => do
    let (a, ⟨r', h'⟩) ← item r
    let (rest, t) ← moreItems item r'
    .ok (a :: rest, t.after (Nat.le_of_lt (Nat.lt_of_lt_of_le h' (length_le_of_skipBlank h))))

/-- What an object's entries are read by: `entry state key` reads on after the key. -/
abbrev EntryStep (σ : Type) : Type := σ → String → (s : List Char) → Step σ s

/-- An entry, past the opening quote of its key. -/
def keyed (entry : EntryStep σ) (state : σ) (s : List Char) : Step σ s := do
  let (key, ⟨r, h⟩) ← takeString s
  let (state', rest) ← entry state key r
  .ok (state', rest.after (Nat.le_of_lt h))

/-- The entries of an object after its first one, through the closing brace. -/
def moreEntries (entry : EntryStep σ) (state : σ) (s : List Char) : Step σ s :=
  match h : skipBlank s with
  | [] => .error .endInObject
  | c :: r =>
    if c = '}' then .ok (state, ⟨r, length_lt_of_skipBlank h⟩)
    else if c = ',' then
      match h' : skipBlank r with
      | [] => .error .endInValue
      | c' :: r' =>
        if c' = '"' then do
          let (state', ⟨r'', h''⟩) ← keyed entry state r'
          have hlt : r''.length < s.length :=
            Nat.lt_trans h'' (Nat.lt_trans (length_lt_of_skipBlank h') (length_lt_of_skipBlank h))
          let (state'', t) ← moreEntries entry state' r''
          .ok (state'', t.after (Nat.le_of_lt hlt))
        else if c' = '}' then .error .trailingComma
        else .error .keyNotString
    else .error .expectedObjectCommaOrEnd
termination_by s.length

/-- The entries of an object, after its opening brace and through the closing one. -/
def entries (entry : EntryStep σ) (state : σ) (s : List Char) : Step σ s :=
  match h : skipBlank s with
  | [] => .error .endInObject
  | c :: r =>
    if c = '}' then .ok (state, ⟨r, length_lt_of_skipBlank h⟩)
    else if c = '"' then do
      let (state', ⟨r', h'⟩) ← keyed entry state r
      let (state'', t) ← moreEntries entry state' r'
      .ok (state'', t.after (Nat.le_of_lt (Nat.lt_trans h' (length_lt_of_skipBlank h))))
    else .error .keyNotString

/-- What is read after the colon of an entry. -/
def afterColon (value : (s : List Char) → Step α s) (s : List Char) : Step α s := do
  let ⟨r, h⟩ ← takeColon s
  let (a, rest) ← value r
  .ok (a, rest.after (Nat.le_of_lt h))

/-- An entry of a map; of entries with the same key the last one counts. -/
def mapEntry (value : (s : List Char) → Step α s) : EntryStep (KeyMap α) := fun m key s => do
  let (a, rest) ← afterColon value s
  .ok (m.insert key a, rest)

end Text

/-! ### Any value -/

/-- Any value from a text. Of entries with the same key the last one is kept. -/
def anyOfText (room : Nat) (s : List Char) : Step Json s :=
  match h : skipBlank s with
  | [] => .error .endInValue
  | 'n' :: _ => word h "ull".toList .null
  | 't' :: _ => word h "rue".toList (.bool true)
  | 'f' :: _ => word h "alse".toList (.bool false)
  | '"' :: r => do
    let (t, rest) ← takeString r
    .ok (.string t, rest.after (Nat.le_of_lt (length_lt_of_skipBlank h)))
  | '[' :: r =>
    match room with
    | 0 => .error .nestingTooDeep
    | room + 1 => do
      let (vs, rest) ← items (anyOfText room) r
      .ok (.array vs, rest.after (Nat.le_of_lt (length_lt_of_skipBlank h)))
  | '{' :: r =>
    match room with
    | 0 => .error .nestingTooDeep
    | room + 1 => do
      let (m, rest) ← entries (mapEntry (anyOfText room)) .empty r
      .ok (.ofMap m, rest.after (Nat.le_of_lt (length_lt_of_skipBlank h)))
  | c :: r =>
    if c = '-' ∨ c.isDigit then do
      let (n, rest) ← takeNumber (c :: r)
      .ok (.number n, rest.after (length_le_of_skipBlank h))
    else .error .expectedValue
where
  /-- The value that a word stands for. -/
  word {s r : List Char} {c : Char} (h : skipBlank s = c :: r) (w : List Char) (v : Json) :
      Step Json s := do
    let ⟨r', h'⟩ ← takeWord w r
    .ok (v, ⟨r', Nat.lt_of_le_of_lt h' (length_lt_of_skipBlank h)⟩)

/-! ### Readers -/

namespace Reader

variable {α β : Type}

/-- A reader followed by a function. -/
def map (f : α → β) (r : Reader α) : Reader β where
  ofValue v := (r.ofValue v).map f
  ofText room s := (r.ofText room s).map fun (a, rest) => (f a, rest)

/-- Reads a value as it is. -/
def any : Reader Json where
  ofValue v := .ok v
  ofText := anyOfText

/-- Reads a string. -/
def string : Reader String where
  ofValue
    | .string s => .ok s
    | v => .error (.invalidType v.found "a string")
  ofText _ s :=
    match h : skipBlank s with
    | '"' :: r => do
      let (t, rest) ← takeString r
      .ok (t, rest.after (Nat.le_of_lt (length_lt_of_skipBlank h)))
    | r => .error (wrongType "a string" r)

/-- Reads an array of what `item` reads. -/
def list (item : Reader α) : Reader (List α) where
  ofValue
    | .array vs => vs.mapM item.ofValue
    | v => .error (.invalidType v.found "a sequence")
  ofText room s :=
    match h : skipBlank s with
    | '[' :: r => do
      let room ← enter room
      let (as, rest) ← items (item.ofText room) r
      .ok (as, rest.after (Nat.le_of_lt (length_lt_of_skipBlank h)))
    | r => .error (wrongType "a sequence" r)

/-- A map with any keys to what `value` reads; of repeated keys the last one counts. -/
def keyMap (value : Reader α) : Reader (KeyMap α) where
  ofValue
    | .object es => es.foldlM (fun m (key, v) => return m.insert key (← value.ofValue v)) .empty
    | v => .error (.invalidType v.found "a map")
  ofText room s :=
    match h : skipBlank s with
    | '{' :: r => do
      let room ← enter room
      let (m, rest) ← entries (mapEntry (value.ofText room)) .empty r
      .ok (m, rest.after (Nat.le_of_lt (length_lt_of_skipBlank h)))
    | r => .error (wrongType "a map" r)

/-- A field of a record: its name, other spellings of it, and how it changes the record. -/
structure Field (ρ : Type) where
  name : String
  aliases : List String
  change : Reader (ρ → ρ)

/-- A field with one spelling. -/
def Field.of {ρ : Type} (name : String) (value : Reader α) (set : α → ρ → ρ) : Field ρ :=
  ⟨name, [], value.map set⟩

/-- The field with one more spelling. -/
def Field.withAlias {ρ : Type} (f : Field ρ) (spelling : String) : Field ρ :=
  { f with aliases := spelling :: f.aliases }

section Record

variable {ρ : Type}

/-- The field that is spelt like this. -/
def fieldOf? (fields : List (Field ρ)) (key : String) : Option (Field ρ) :=
  fields.find? fun f => f.name == key || f.aliases.contains key

/-- A record while its entries are read, with the names of the fields already seen. -/
structure Partly (ρ : Type) where
  record : ρ
  seen : List String

/-- Notes the value of a field. -/
def Partly.see (p : Partly ρ) (f : Field ρ) (change : ρ → ρ) : Partly ρ :=
  ⟨change p.record, f.name :: p.seen⟩

/-- An entry of a record: a field at most once, and unknown keys without effect. -/
def recordEntry (fields : List (Field ρ)) (p : Partly ρ) (key : String) (v : Json) :
    Except ReadError (Partly ρ) :=
  match fieldOf? fields key with
  | none => .ok p
  | some f =>
    if f.name ∈ p.seen then .error (.duplicateField f.name)
    else (f.change.ofValue v).map (p.see f)

/-- An entry of a record. What stands under no field is passed over, and no field may be given
twice. -/
def recordEntryText (fields : List (Field ρ)) (room : Nat) : EntryStep (Partly ρ) :=
  fun p key s =>
    match fieldOf? fields key with
    | none => do
      let ⟨r, h⟩ ← takeColon s
      let ⟨r', h'⟩ ← skipValue r
      .ok (p, ⟨r', Nat.lt_of_le_of_lt h' h⟩)
    | some f =>
      if f.name ∈ p.seen then .error (.duplicateField f.name)
      else do
        let (change, rest) ← afterColon (f.change.ofText room) s
        .ok (p.see f change, rest)

/-- Fields by position: items beyond the fields are an error, and fields without an item keep their
value. -/
def recordItems (count : Nat) : List (Field ρ) → List Json → ρ → Except ReadError ρ
  | _, [], record => .ok record
  | [], _ :: _, _ => .error (.tooManyItems count)
  | f :: fields, v :: vs, record => do
    let change ← f.change.ofValue v
    recordItems count fields vs (change record)

/-- Past the end of a list of which no more items are wanted. -/
def closeItems (s : List Char) : Except ReadError (Rest s) :=
  match h : skipBlank s with
  | [] => .error .endInList
  | ']' :: r => .ok ⟨r, length_lt_of_skipBlank h⟩
  | ',' :: r =>
    match skipBlank r with
    | ']' :: _ => .error .trailingComma
    | _ => .error .trailingCharacters
  | _ => .error .trailingCharacters

/-- Fields by position in text, after the opening bracket; `first` before the first item. -/
def recordItemsText (room : Nat) (first : Bool) (fields : List (Field ρ)) (record : ρ)
    (s : List Char) : Step ρ s :=
  match fields with
  | [] => do
    let rest ← closeItems s
    .ok (record, rest)
  | f :: fields =>
    match h : skipBlank s with
    | [] => .error .endInList
    | c :: r =>
      if c = ']' then .ok (record, ⟨r, length_lt_of_skipBlank h⟩)
      else if first then do
        let (change, ⟨r', h'⟩) ← f.change.ofText room (c :: r)
        let (record', rest) ← recordItemsText room false fields (change record) r'
        .ok (record', rest.after (by have := length_le_of_skipBlank h; omega))
      else if c = ',' then
        match h' : skipBlank r with
        | [] => .error .endInValue
        | ']' :: _ => .error .trailingComma
        | r' => do
          let (change, ⟨r'', h''⟩) ← f.change.ofText room r'
          let (record', rest) ← recordItemsText room false fields (change record) r''
          .ok (record', rest.after (by
            have := length_lt_of_skipBlank h
            have := length_le_of_skipBlank h'
            omega))
      else .error .expectedListCommaOrEnd

/-- A record with named fields, which may also be given by position; fields that are not given keep
the value that they have in `start`. -/
def record (wanted : String) (fields : List (Field ρ)) (start : ρ) : Reader ρ where
  ofValue
    | .object es =>
      (es.foldlM (fun p (key, v) => recordEntry fields p key v) ⟨start, []⟩).map Partly.record
    | .array vs => recordItems vs.length fields vs start
    | v => .error (.invalidType v.found wanted)
  ofText room s :=
    match h : skipBlank s with
    | '{' :: r => do
      let room ← enter room
      let (p, rest) ← entries (recordEntryText fields room) ⟨start, []⟩ r
      .ok (p.record, rest.after (Nat.le_of_lt (length_lt_of_skipBlank h)))
    | '[' :: r => do
      let room ← enter room
      let (a, rest) ← recordItemsText room true fields start r
      .ok (a, rest.after (Nat.le_of_lt (length_lt_of_skipBlank h)))
    | r => .error (wrongType wanted r)

end Record

/-- What is read from the whole of a text, which may end in blanks. -/
def parse (r : Reader α) (text : String) : Except ReadError α := do
  let (a, rest) ← r.ofText nestingLimit text.toList
  if skipBlank rest.1 = [] then .ok a else .error .trailingCharacters

end Reader

/-- The value of a text. -/
def parse (text : String) : Except ReadError Json := Reader.any.parse text

end AccessPolicy.Json
