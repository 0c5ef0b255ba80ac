import AccessPolicy.Proofs.Json.Scan
import AccessPolicy.Toml.Quoted

/-! TOML strings as they are written, between double quotes and in one line. Reading such a string
gives it back, and leaves what follows its closing quote, unless that is a third quote in a row. -/

namespace AccessPolicy.Toml

open Json (hexDigit hexValue?_hexDigit)

variable {α : Type} {P : List Char → Prop}

/-! ### Steps without their proofs -/

/-- What a step gives and the text that it leaves, if it succeeds. -/
def outcome (x : Option (α × { r // P r })) : Option (α × List Char) := x.map fun p => (p.1, p.2.1)

/-- The text that is left, where nothing else is of interest. -/
def leaves (x : Option { r // P r }) : Option (List Char) := x.map (·.1)

theorem outcome_eq_some_iff {x : Option (α × { r // P r })} {a : α} {t : List Char} :
    outcome x = some (a, t) ↔ ∃ h, x = some (a, ⟨t, h⟩) := by
  cases x with
  | none => simp [outcome]
  | some p =>
    obtain ⟨b, r, h⟩ := p
    simp only [outcome, Option.map_some, Option.some.injEq, Prod.mk.injEq]
    constructor
    · rintro ⟨rfl, rfl⟩
      exact ⟨h, rfl, rfl⟩
    · rintro ⟨h', rfl, heq⟩
      exact ⟨rfl, congrArg Subtype.val heq⟩

theorem leaves_eq_some_iff {x : Option { r // P r }} {t : List Char} :
    leaves x = some t ↔ ∃ h, x = some ⟨t, h⟩ := by
  cases x with
  | none => simp [leaves]
  | some p =>
    obtain ⟨r, h⟩ := p
    simp only [leaves, Option.map_some, Option.some.injEq, Subtype.mk.injEq]
    constructor
    · rintro rfl
      exact ⟨h, rfl⟩
    · rintro ⟨-, rfl⟩
      rfl

/-! ### Characters -/

/-- A character between double quotes: quotes and backslashes are escaped, and characters that may
not stand for themselves are written by their codes. -/
def writtenChar (c : Char) : List Char :=
  if c = '"' ∨ c = '\\' then ['\\', c]
  else if isPlain c then [c]
  else ['\\', 'u', '0', '0', hexDigit (c.toNat / 16), hexDigit (c.toNat % 16)]

theorem toNat_lt_of_not_plain {c : Char} (hc : ¬isPlain c = true) : c.toNat < 128 := by
  simp only [isPlain, Bool.or_eq_true, beq_iff_eq, Bool.and_eq_true, decide_eq_true_eq, bne_iff_ne,
    not_or, not_and, Decidable.not_not] at hc
  by_cases hspace : ' ' ≤ c
  · rw [hc.2 hspace]
    decide
  · have hlt : c.toNat < 32 := Char.not_le.mp hspace
    omega

theorem outcome_takeBasic_quote (t : List Char) :
    outcome (takeBasic ('"' :: t)) = some ([], t) := by
  rw [takeBasic]
  rfl

theorem outcome_takeBasic_escape {r t : List Char} {c : Char}
    (h : outcome (takeEscape r) = some (c, t)) :
    outcome (takeBasic ('\\' :: r)) = (outcome (takeBasic t)).map fun p => (c :: p.1, p.2) := by
  obtain ⟨hlt, hescape⟩ := outcome_eq_some_iff.mp h
  rw [takeBasic, hescape]
  show outcome ((takeBasic t).bind _) = _
  cases takeBasic t <;> rfl

theorem outcome_takeBasic_plain {c : Char} (hquote : c ≠ '"') (hslash : c ≠ '\\')
    (hc : isPlain c = true) (t : List Char) :
    outcome (takeBasic (c :: t)) = (outcome (takeBasic t)).map fun p => (c :: p.1, p.2) := by
  rw [takeBasic]
  · rw [if_pos hc]
    show outcome ((takeBasic t).bind _) = _
    cases takeBasic t <;> rfl
  · exact fun h => hquote h
  · exact fun h => hslash h

theorem outcome_takeEscape_simple {c d : Char} (h : simpleEscape? c = some d) (t : List Char) :
    outcome (takeEscape (c :: t)) = some (d, t) := by
  simp only [takeEscape, h]
  rfl

theorem outcome_takeCode {digits : List Char} {values : List Nat} {c : Char} (t : List Char)
    (hvalues : digits.mapM hexValue? = some values) (hlength : values.length = digits.length)
    (hcode : digitsValueIn 16 digits = c.toNat) :
    outcome (takeCode digits.length (digits ++ t)) = some (c, t) := by
  have hvalid : c.toNat.isValidChar := c.valid
  simp only [takeCode, List.take_left, hvalues, hcode]
  simp [outcome, hlength, hvalid, Char.ofNat_toNat]

theorem outcome_takeEscape_code {c : Char} (hc : c.toNat < 128) (t : List Char) :
    outcome (takeEscape
      ('u' :: '0' :: '0' :: hexDigit (c.toNat / 16) :: hexDigit (c.toNat % 16) :: t)) =
      some (c, t) := by
  have hhigh := hexValue?_hexDigit (n := c.toNat / 16) (by omega)
  have hlow := hexValue?_hexDigit (n := c.toNat % 16) (by omega)
  have hzero : hexValue? '0' = some 0 := by decide
  have hu : simpleEscape? 'u' = none := by decide
  let digits := ['0', '0', hexDigit (c.toNat / 16), hexDigit (c.toNat % 16)]
  have hread : outcome (takeCode 4 (digits ++ t)) = some (c, t) := by
    have hvalues : digits.mapM hexValue? = some [0, 0, c.toNat / 16, c.toNat % 16] := by
      simp only [digits, List.mapM_cons, List.mapM_nil, hzero, hhigh, hlow]
      rfl
    have hcode : digitsValueIn 16 digits = c.toNat := by
      simp only [digits, digitsValueIn, List.foldl_cons, List.foldl_nil, hzero, hhigh, hlow,
        Option.getD_some]
      omega
    exact outcome_takeCode t hvalues rfl hcode
  obtain ⟨hle, hread⟩ := outcome_eq_some_iff.mp hread
  have hcount : codeLength? 'u' = some 4 := rfl
  simp only [takeEscape, hu, hcount, Option.bind_eq_bind, Option.bind_some]
  rw [show takeCode 4 ('0' :: '0' :: hexDigit (c.toNat / 16) :: hexDigit (c.toNat % 16) :: t) =
    some (c, ⟨t, hle⟩) from hread]
  rfl

/-- Every character is read back as it is written. -/
theorem outcome_takeBasic_writtenChar (c : Char) (t : List Char) :
    outcome (takeBasic (writtenChar c ++ t)) =
      (outcome (takeBasic t)).map fun p => (c :: p.1, p.2) := by
  by_cases hc : c = '"' ∨ c = '\\'
  · have hsimple : simpleEscape? c = some c := by rcases hc with rfl | rfl <;> rfl
    rw [writtenChar, if_pos hc]
    exact outcome_takeBasic_escape (outcome_takeEscape_simple hsimple t)
  · obtain ⟨hquote, hslash⟩ := not_or.mp hc
    rw [writtenChar, if_neg hc]
    by_cases hplain : isPlain c = true
    · rw [if_pos hplain]
      exact outcome_takeBasic_plain hquote hslash hplain t
    · rw [if_neg hplain]
      exact outcome_takeBasic_escape (outcome_takeEscape_code (toNat_lt_of_not_plain hplain) t)

theorem writtenChar_append_ne (c : Char) (r t : List Char) : writtenChar c ++ r ≠ '"' :: t := by
  unfold writtenChar
  by_cases hc : c = '"' ∨ c = '\\'
  · rw [if_pos hc]
    rintro ⟨⟩
  · rw [if_neg hc]
    by_cases hplain : isPlain c = true
    · rw [if_pos hplain]
      rintro ⟨⟩
      exact hc (.inl rfl)
    · rw [if_neg hplain]
      rintro ⟨⟩

/-! ### Strings -/

/-- A string between double quotes. -/
def quoted (s : String) : List Char := '"' :: s.toList.flatMap writtenChar ++ ['"']

theorem quoted_append (s : String) (t : List Char) :
    quoted s ++ t = '"' :: (s.toList.flatMap writtenChar ++ '"' :: t) := by
  simp [quoted]

theorem outcome_takeBasic_written (cs t : List Char) :
    outcome (takeBasic (cs.flatMap writtenChar ++ '"' :: t)) = some (cs, t) := by
  induction cs with
  | nil => exact outcome_takeBasic_quote t
  | cons c cs ih =>
    rw [List.flatMap_cons, List.append_assoc, outcome_takeBasic_writtenChar, ih]
    rfl

theorem outcome_finish {s r t : List Char} {step : Step (List Char) r} {text : String}
    (h : outcome step = some (text.toList, t)) (hle : r.length ≤ s.length) :
    outcome (takeQuoted.finish (s := s) step hle) = some (text, t) := by
  obtain ⟨hlt, rfl⟩ := outcome_eq_some_iff.mp h
  show some (String.ofList text.toList, t) = some (text, t)
  rw [String.ofList_toList]

/-- A string is read back. Two quotes with a third one after them would open a string over several
lines. -/
theorem outcome_takeQuoted_quoted (s : String) {t : List Char} (ht : t.head? ≠ some '"') :
    outcome (takeQuoted (quoted s ++ t)) = some (s, t) := by
  have hnot : ∀ r, s.toList.flatMap writtenChar ++ '"' :: t ≠ '"' :: '"' :: r := by
    intro r heq
    cases hs : s.toList with
    | nil =>
      rw [hs] at heq
      cases heq
      exact ht rfl
    | cons c cs =>
      rw [hs, List.flatMap_cons, List.append_assoc] at heq
      exact writtenChar_append_ne c _ _ heq
  rw [quoted_append, takeQuoted]
  · exact outcome_finish (outcome_takeBasic_written s.toList t) _
  · exact fun r h => hnot r h

end AccessPolicy.Toml
