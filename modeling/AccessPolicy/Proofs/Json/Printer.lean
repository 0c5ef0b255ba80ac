import AccessPolicy.Proofs.Json.Numeral

/-! Values as they are written. No blanks are written, and the first character of a text tells what
the value is. Items and entries after the first one each follow a comma. -/

namespace AccessPolicy.Json

/-- All numbers in a value are finite. -/
inductive Finite : Json → Prop
  | null : Finite .null
  | bool (b : Bool) : Finite (.bool b)
  | number {n : Number} : n.isFinite = true → Finite (.number n)
  | string (s : String) : Finite (.string s)
  | array {vs : List Json} : (∀ v ∈ vs, Finite v) → Finite (.array vs)
  | object {es : List (String × Json)} : (∀ e ∈ es, Finite e.2) → Finite (.object es)

attribute [simp] Finite.null Finite.bool Finite.string

theorem Finite.items {vs : List Json} (h : (Json.array vs).Finite) : ∀ v ∈ vs, v.Finite := by
  cases h
  assumption

theorem Finite.entries {es : List (String × Json)} (h : (Json.object es).Finite) :
    ∀ e ∈ es, e.2.Finite := by
  cases h
  assumption

@[simp] theorem finite_number_iff {n : Number} : (number n).Finite ↔ n.isFinite = true :=
  ⟨fun | .number hn => hn, .number⟩

@[simp] theorem finite_array_iff {vs : List Json} : (array vs).Finite ↔ ∀ v ∈ vs, v.Finite :=
  ⟨Finite.items, .array⟩

@[simp] theorem finite_object_iff {es : List (String × Json)} :
    (object es).Finite ↔ ∀ e ∈ es, e.2.Finite :=
  ⟨Finite.entries, .object⟩

/-- The values in a container, by position or by name. -/
def parts : Json → List Json
  | array vs => vs
  | object es => es.map (·.2)
  | _ => []

theorem Finite.parts {v : Json} (h : v.Finite) : ∀ w ∈ v.parts, w.Finite := by
  cases v with
  | array vs => exact h.items
  | object es => exact List.forall_mem_map.mpr h.entries
  | _ => exact fun _ hw => by cases hw

theorem Finite.strings (ss : List String) : (Json.array (ss.map .string)).Finite := by
  refine .array fun v hv => ?_
  obtain ⟨s, -, rfl⟩ := List.mem_map.mp hv
  exact .string s

theorem Finite.ofMap {α : Type} {write : α → Json} (h : ∀ a, (write a).Finite) (m : KeyMap α) :
    (Json.ofMap (m.map write)).Finite := by
  refine .object fun e he => ?_
  obtain ⟨e', -, rfl⟩ := List.mem_map.mp he
  exact h e'.2

/-! ### The first character -/

/-- What starts with a character: words, numbers, strings and containers. -/
inductive Starts : Json → Char → Prop
  | null : Starts .null 'n'
  | yes : Starts (.bool true) 't'
  | no : Starts (.bool false) 'f'
  | number {n : Number} {c : Char} : c = '-' ∨ c.isDigit = true → Starts (.number n) c
  | string {s : String} : Starts (.string s) '"'
  | array {vs : List Json} : Starts (.array vs) '['
  | object {es : List (String × Json)} : Starts (.object es) '{'

theorem Numeral.exists_cons {cs : List Char} (h : Numeral cs) :
    ∃ c r, cs = c :: r ∧ (c = '-' ∨ c.isDigit = true) := by
  cases h with
  | unsigned h =>
    obtain ⟨c, r, hcons, hdigit⟩ := h.exists_digit
    exact ⟨c, r, hcons, .inr hdigit⟩
  | @negative cs h => exact ⟨'-', cs, rfl, .inl rfl⟩

/-- The text of a value starts with a character that tells what the value is. -/
theorem Finite.exists_print {v : Json} (h : v.Finite) : ∃ c cs, v.print = c :: cs ∧ Starts v c := by
  cases h with
  | null => exact ⟨_, _, rfl, .null⟩
  | bool b =>
    cases b with
    | false => exact ⟨_, _, rfl, .no⟩
    | true => exact ⟨_, _, rfl, .yes⟩
  | number hn =>
    obtain ⟨c, cs, hcons, hc⟩ := (numeral_toText hn).exists_cons
    exact ⟨c, cs, hcons, .number hc⟩
  | string s => exact ⟨_, _, rfl, .string⟩
  | array _ => exact ⟨_, _, rfl, .array⟩
  | object _ => exact ⟨_, _, rfl, .object⟩

section Starts

variable {v : Json} {c : Char}

theorem ne_of_sign_or_digit {d : Char} (hc : c = '-' ∨ c.isDigit = true)
    (hd : d ≠ '-' ∧ d.isDigit = false) : c ≠ d := by
  rintro rfl
  rcases hc with hminus | hdigit
  · exact hd.1 hminus
  · rw [hd.2] at hdigit
    cases hdigit

theorem Starts.not_blank (h : Starts v c) : isBlank c = false := by
  cases h with
  | number hc =>
    have hspace := ne_of_sign_or_digit hc (d := ' ') (by decide)
    have htab := ne_of_sign_or_digit hc (d := '\t') (by decide)
    have hnewline := ne_of_sign_or_digit hc (d := '\n') (by decide)
    have hreturn := ne_of_sign_or_digit hc (d := '\r') (by decide)
    simp [isBlank, hspace, htab, hnewline, hreturn]
  | _ => rfl

/-- No value starts as the rest of a container does. -/
theorem Starts.ne_closing (h : Starts v c) : c ≠ ']' ∧ c ≠ '}' ∧ c ≠ ',' := by
  cases h with
  | number hc =>
    exact ⟨ne_of_sign_or_digit hc (by decide), ne_of_sign_or_digit hc (by decide),
      ne_of_sign_or_digit hc (by decide)⟩
  | _ => decide

theorem Starts.eq_string (h : Starts v '"') : ∃ s, v = .string s := by
  cases h with
  | number hc => exact absurd rfl (ne_of_sign_or_digit hc (by decide))
  | string => exact ⟨_, rfl⟩

theorem Starts.eq_array (h : Starts v '[') : ∃ vs, v = .array vs := by
  cases h with
  | number hc => exact absurd rfl (ne_of_sign_or_digit hc (by decide))
  | array => exact ⟨_, rfl⟩

theorem Starts.eq_object (h : Starts v '{') : ∃ es, v = .object es := by
  cases h with
  | number hc => exact absurd rfl (ne_of_sign_or_digit hc (by decide))
  | object => exact ⟨_, rfl⟩

end Starts

theorem skipBlank_cons {c : Char} (hc : isBlank c = false) (r : List Char) :
    skipBlank (c :: r) = c :: r :=
  List.dropWhile_cons_of_neg (by simp [hc])

theorem Finite.exists_skipBlank {v : Json} (h : v.Finite) (t : List Char) :
    ∃ c r, v.print ++ t = c :: r ∧ skipBlank (v.print ++ t) = c :: r ∧ Starts v c := by
  obtain ⟨c, cs, hprint, hstarts⟩ := h.exists_print
  rw [hprint, List.cons_append]
  exact ⟨c, cs ++ t, rfl, skipBlank_cons hstarts.not_blank _, hstarts⟩

theorem Finite.skipBlank_print {v : Json} (h : v.Finite) (t : List Char) :
    skipBlank (v.print ++ t) = v.print ++ t := by
  obtain ⟨c, r, htext, hblank, -⟩ := h.exists_skipBlank t
  rw [hblank, htext]

/-- The text of a value does not start as the text of another kind of value does. -/
theorem Finite.skipBlank_print_ne {v : Json} (h : v.Finite) {c : Char} (hc : ¬Starts v c)
    (t r : List Char) : skipBlank (v.print ++ t) ≠ c :: r := by
  obtain ⟨d, r', -, hblank, hstarts⟩ := h.exists_skipBlank t
  rw [hblank]
  rintro ⟨⟩
  exact hc hstarts

/-! ### Items and entries -/

/-- Items after the first one. -/
def printMoreItems (vs : List Json) : List Char := vs.flatMap fun v => ',' :: v.print

theorem printItems_cons (v : Json) (vs : List Json) :
    printItems (v :: vs) = v.print ++ printMoreItems vs := by
  induction vs generalizing v with
  | nil => simp [printItems, printMoreItems]
  | cons w vs ih => simp [printItems, ih w, printMoreItems]

/-- An entry up to its value, without the opening quote of the key. -/
def printKey (key : String) : List Char := key.toList.flatMap escapedChar ++ ['"', ':']

/-- Entries after the first one. -/
def printMoreEntries (es : List (String × Json)) : List Char :=
  es.flatMap fun e => ',' :: '"' :: printKey e.1 ++ e.2.print

theorem printEntries_cons (e : String × Json) (es : List (String × Json)) :
    printEntries (e :: es) = '"' :: printKey e.1 ++ e.2.print ++ printMoreEntries es := by
  induction es generalizing e with
  | nil => simp [printEntries, printString, printKey, printMoreEntries]
  | cons f es ih => simp [printEntries, printString, ih f, printKey, printMoreEntries]

theorem print_string_append (s : String) (t : List Char) :
    (string s).print ++ t = '"' :: (s.toList.flatMap escapedChar ++ '"' :: t) := by
  simp [print, printString]

theorem print_array_append (vs : List Json) (t : List Char) :
    (array vs).print ++ t = '[' :: (printItems vs ++ ']' :: t) := by
  simp [print]

theorem print_object_append (es : List (String × Json)) (t : List Char) :
    (object es).print ++ t = '{' :: (printEntries es ++ '}' :: t) := by
  simp [print]

theorem printMoreItems_cons_append (v : Json) (vs : List Json) (t : List Char) :
    printMoreItems (v :: vs) ++ t = ',' :: (v.print ++ (printMoreItems vs ++ t)) := by
  simp [printMoreItems]

theorem printMoreEntries_cons_append (e : String × Json) (es : List (String × Json))
    (t : List Char) : printMoreEntries (e :: es) ++ t =
      ',' :: ('"' :: printKey e.1 ++ (e.2.print ++ (printMoreEntries es ++ t))) := by
  simp [printMoreEntries]

theorem endsNumeral_nil : EndsNumeral [] := fun _ h => by cases h

theorem endsNumeral_moreItems (vs : List Json) (t : List Char) :
    EndsNumeral (printMoreItems vs ++ ']' :: t) := by
  cases vs <;> simp [printMoreItems, EndsNumeral]

theorem endsNumeral_moreEntries (es : List (String × Json)) (t : List Char) :
    EndsNumeral (printMoreEntries es ++ '}' :: t) := by
  cases es <;> simp [printMoreEntries, EndsNumeral]

end AccessPolicy.Json
