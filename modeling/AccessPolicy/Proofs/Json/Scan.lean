import AccessPolicy.Json.Printer
import AccessPolicy.Json.Scan
import AccessPolicy.Proofs.Except

/-! Strings as they are written: reading the characters of a printed string gives the string back,
and leaves what follows its closing quote. Passing over a string is no stricter than reading it.
What a step gives and leaves is looked at without the proof that it leaves less. -/

namespace AccessPolicy.Json

variable {α β : Type} {P Q : List Char → Prop}

/-! ### Steps without their proofs -/

/-- What a step gives and the text that it leaves, if it succeeds. -/
def outcome (x : Except ReadError (α × { r // P r })) : Option (α × List Char) :=
  x.toOption.map fun p => (p.1, p.2.1)

/-- The text that is left, where nothing else is of interest. -/
def leaves (x : Except ReadError { r // P r }) : Option (List Char) := x.toOption.map (·.1)

theorem outcome_eq_some_iff {x : Except ReadError (α × { r // P r })} {a : α} {t : List Char} :
    outcome x = some (a, t) ↔ ∃ h, x = .ok (a, ⟨t, h⟩) := by
  cases x with
  | error e => simp [outcome, Except.toOption]
  | ok p =>
    obtain ⟨b, r, h⟩ := p
    simp only [outcome, Except.toOption, Option.map_some, Option.some.injEq, Prod.mk.injEq,
      Except.ok.injEq]
    constructor
    · rintro ⟨rfl, rfl⟩
      exact ⟨h, rfl, rfl⟩
    · rintro ⟨h', rfl, heq⟩
      exact ⟨rfl, congrArg Subtype.val heq⟩

theorem leaves_eq_some_iff {x : Except ReadError { r // P r }} {t : List Char} :
    leaves x = some t ↔ ∃ h, x = .ok ⟨t, h⟩ := by
  cases x with
  | error e => simp [leaves, Except.toOption]
  | ok p =>
    obtain ⟨r, h⟩ := p
    simp only [leaves, Except.toOption, Option.map_some, Option.some.injEq, Except.ok.injEq,
      Subtype.mk.injEq]
    constructor
    · rintro rfl
      exact ⟨h, rfl⟩
    · rintro ⟨-, rfl⟩
      rfl

theorem outcome_bind {x : Except ReadError (α × { r // P r })}
    {next : α × { r // P r } → Except ReadError (β × { r // Q r })}
    {f : α × List Char → Option (β × List Char)}
    (hnext : ∀ a r h, outcome (next (a, ⟨r, h⟩)) = f (a, r)) :
    outcome (x >>= next) = (outcome x).bind f := by
  cases x with
  | error e => rfl
  | ok p => exact hnext p.1 p.2.1 p.2.2

theorem outcome_within (x : Except ReadError (α × { r // P r })) (f : α → β)
    (h : ∀ p : α × { r // P r }, Q p.2.1) :
    outcome (x >>= fun p => .ok (f p.1, (⟨p.2.1, h p⟩ : { r // Q r }))) =
      (outcome x).map fun p => (f p.1, p.2) := by
  cases x <;> rfl

theorem outcome_after (x : Except ReadError (α × { r // P r }))
    (h : ∀ p : α × { r // P r }, Q p.2.1) :
    outcome (x >>= fun p => .ok (p.1, (⟨p.2.1, h p⟩ : { r // Q r }))) = outcome x := by
  cases x <;> rfl

theorem leaves_bind {x : Except ReadError { r // P r }}
    {next : { r // P r } → Except ReadError { r // Q r }} {t : List Char} {u : Option (List Char)}
    (hx : leaves x = some t) (hnext : ∀ h : P t, leaves (next ⟨t, h⟩) = u) :
    leaves (x >>= next) = u := by
  obtain ⟨h, rfl⟩ := leaves_eq_some_iff.mp hx
  exact hnext h

theorem leaves_within (x : Except ReadError { r // P r }) (h : ∀ p : { r // P r }, Q p.1) :
    leaves (x >>= fun p => .ok (⟨p.1, h p⟩ : { r // Q r })) = leaves x := by
  cases x <;> rfl

/-! ### Strings -/

theorem outcome_takeChars_quote (r : List Char) :
    outcome (takeChars ('"' :: r)) = some ([], r) := by
  rw [takeChars]
  rfl

theorem outcome_takeChars_escape {r r' : List Char} {c : Char}
    (h : outcome (takeEscape r) = some (c, r')) :
    outcome (takeChars ('\\' :: r)) = (outcome (takeChars r')).map fun p => (c :: p.1, p.2) := by
  obtain ⟨hlt, hescape⟩ := outcome_eq_some_iff.mp h
  rw [takeChars, hescape]
  exact outcome_within (takeChars r') (c :: ·) _

theorem outcome_takeChars_plain {c : Char} (hquote : c ≠ '"') (hslash : c ≠ '\\') (hc : ¬c < ' ')
    (r : List Char) :
    outcome (takeChars (c :: r)) = (outcome (takeChars r)).map fun p => (c :: p.1, p.2) := by
  rw [takeChars]
  · rw [if_neg hc]
    exact outcome_within (takeChars r) (c :: ·) _
  · exact fun h => hquote h
  · exact fun h => hslash h

theorem hexValue?_hexDigit {n : Nat} (hn : n < 16) : hexValue? (hexDigit n) = some n := by
  have hall : ∀ m : Fin 16, hexValue? (hexDigit m) = some m.1 := by decide
  exact hall ⟨n, hn⟩

theorem outcome_takeEscape_simple {c d : Char} (h : simpleEscape? c = some d) (r : List Char) :
    outcome (takeEscape (c :: r)) = some (d, r) := by
  simp only [takeEscape, h]
  rfl

/-- A control character is read back from its code. -/
theorem outcome_takeEscape_code {c : Char} (hc : c < ' ') (r : List Char) :
    outcome (takeEscape
      ('u' :: '0' :: '0' :: hexDigit (c.toNat / 16) :: hexDigit (c.toNat % 16) :: r)) =
      some (c, r) := by
  have hlt : c.toNat < 32 := hc
  have hhigh := hexValue?_hexDigit (n := c.toNat / 16) (by omega)
  have hlow := hexValue?_hexDigit (n := c.toNat % 16) (by omega)
  have hzero : hexValue? '0' = some 0 := by decide
  have hcode : ((0 * 16 + 0) * 16 + c.toNat / 16) * 16 + c.toNat % 16 = c.toNat := by omega
  have hleading : isLeadingSurrogate c.toNat = false := by
    simp only [isLeadingSurrogate, Bool.and_eq_false_iff, decide_eq_false_iff_not]
    omega
  have htrailing : isTrailingSurrogate c.toNat = false := by
    simp only [isTrailingSurrogate, Bool.and_eq_false_iff, decide_eq_false_iff_not]
    omega
  have hu : simpleEscape? 'u' = none := by decide
  simp only [takeEscape, hu, if_pos, takeCodeEscape, takeHex4, hzero, hhigh, hlow, bind,
    Except.bind, hcode, hleading, htrailing, Bool.false_eq_true, if_false, Char.ofNat_toNat]
  rfl

/-- A character is written as an escape of one letter, as its code, or as itself. -/
inductive Escaped (c : Char) : List Char → Prop
  | letter {d : Char} : simpleEscape? d = some c → Escaped c ['\\', d]
  | code : c < ' ' →
    Escaped c ['\\', 'u', '0', '0', hexDigit (c.toNat / 16), hexDigit (c.toNat % 16)]
  | plain : c ≠ '"' → c ≠ '\\' → ¬c < ' ' → Escaped c [c]

theorem escaped_escapedChar (c : Char) : Escaped c (escapedChar c) := by
  by_cases hquote : c = '"'
  · subst hquote; exact .letter (by decide)
  by_cases hslash : c = '\\'
  · subst hslash; exact .letter (by decide)
  by_cases hb : c = '\x08'
  · subst hb; exact .letter (by decide)
  by_cases hf : c = '\x0c'
  · subst hf; exact .letter (by decide)
  by_cases hn : c = '\n'
  · subst hn; exact .letter (by decide)
  by_cases hr : c = '\r'
  · subst hr; exact .letter (by decide)
  by_cases ht : c = '\t'
  · subst ht; exact .letter (by decide)
  rw [escapedChar]
  · split
    · next hc => exact .code hc
    · next hc => exact .plain hquote hslash hc
  all_goals assumption

/-- The written form of a character is read back as that character. -/
theorem outcome_takeChars_escapedChar (c : Char) (r : List Char) :
    outcome (takeChars (escapedChar c ++ r)) =
      (outcome (takeChars r)).map fun p => (c :: p.1, p.2) := by
  have hescaped := escaped_escapedChar c
  generalize escapedChar c = written at hescaped
  cases hescaped with
  | letter h => exact outcome_takeChars_escape (outcome_takeEscape_simple h r)
  | code hc => exact outcome_takeChars_escape (outcome_takeEscape_code hc r)
  | plain hquote hslash hc => exact outcome_takeChars_plain hquote hslash hc r

theorem outcome_takeString_printed (s : String) (t : List Char) :
    outcome (takeString (s.toList.flatMap escapedChar ++ '"' :: t)) = some (s, t) := by
  have hchars : ∀ cs : List Char,
      outcome (takeChars (cs.flatMap escapedChar ++ '"' :: t)) = some (cs, t) := by
    intro cs
    induction cs with
    | nil => exact outcome_takeChars_quote t
    | cons c cs ih =>
      rw [List.flatMap_cons, List.append_assoc, outcome_takeChars_escapedChar, ih]
      rfl
  obtain ⟨hlt, hread⟩ := outcome_eq_some_iff.mp (hchars s.toList)
  rw [takeString, hread]
  show some (String.ofList s.toList, t) = some (s, t)
  rw [String.ofList_toList]

/-! ### Passing over a string -/

theorem leaves_passString_quote (r : List Char) : leaves (passString ('"' :: r)) = some r := by
  rw [passString]
  rfl

theorem leaves_passString_escape {r r' : List Char} (h : leaves (passEscape r) = some r') :
    leaves (passString ('\\' :: r)) = leaves (passString r') := by
  rw [passString]
  exact leaves_bind h fun _ => leaves_within (passString r') _

theorem leaves_passString_plain {c : Char} (hquote : c ≠ '"') (hslash : c ≠ '\\') (hc : ¬c < ' ')
    (r : List Char) : leaves (passString (c :: r)) = leaves (passString r) := by
  rw [passString]
  · rw [if_neg hc]
    exact leaves_within (passString r) _
  · exact fun h => hquote h
  · exact fun h => hslash h

theorem leaves_passEscape_simple {c d : Char} (h : simpleEscape? c = some d) (r : List Char) :
    leaves (passEscape (c :: r)) = some r := by
  simp only [passEscape, h]
  rfl

theorem leaves_passEscape_code {a b : Nat} (ha : a < 16) (hb : b < 16) (r : List Char) :
    leaves (passEscape ('u' :: '0' :: '0' :: hexDigit a :: hexDigit b :: r)) = some r := by
  have hzero : hexValue? '0' = some 0 := by decide
  have hu : simpleEscape? 'u' = none := by decide
  simp only [passEscape, hu, takeHex4, hzero, hexValue?_hexDigit ha, hexValue?_hexDigit hb]
  rfl

theorem leaves_passString_escapedChar (c : Char) (r : List Char) :
    leaves (passString (escapedChar c ++ r)) = leaves (passString r) := by
  have hescaped := escaped_escapedChar c
  generalize escapedChar c = written at hescaped
  cases hescaped with
  | letter h => exact leaves_passString_escape (leaves_passEscape_simple h r)
  | code hc =>
    have hlt : c.toNat < 32 := hc
    exact leaves_passString_escape (leaves_passEscape_code (by omega) (by omega) r)
  | plain hquote hslash hc => exact leaves_passString_plain hquote hslash hc r

theorem leaves_passString_printed (s : String) (t : List Char) :
    leaves (passString (s.toList.flatMap escapedChar ++ '"' :: t)) = some t := by
  induction s.toList with
  | nil => exact leaves_passString_quote t
  | cons c cs ih => rw [List.flatMap_cons, List.append_assoc, leaves_passString_escapedChar, ih]

end AccessPolicy.Json
