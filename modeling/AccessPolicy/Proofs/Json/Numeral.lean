import AccessPolicy.Binary64.Decimal
import AccessPolicy.Proofs.Binary64.Shortest
import AccessPolicy.Proofs.Json.Scan

/-! Numbers as they are written. The text of every finite number is a numeral: digits without a zero
in front, then a point with digits and an exponent, each of which may be missing. A numeral is
scanned to its end, whatever follows it that cannot go on with it. -/

namespace AccessPolicy.Json

/-! ### Numerals -/

/-- One decimal digit or more. -/
structure Digits (ds : List Char) : Prop where
  ne_nil : ds ≠ []
  isDigit : ∀ c ∈ ds, c.isDigit = true

/-- Digits of which the first is no zero, or a zero alone. -/
structure Whole (ds : List Char) : Prop extends Digits ds where
  alone : ds.head? = some '0' → ds.length = 1

/-- Nothing, or a point and digits. -/
inductive Fraction : List Char → Prop
  | none : Fraction []
  | digits {ds : List Char} : Digits ds → Fraction ('.' :: ds)

/-- Nothing, or a power of ten with its sign. -/
inductive Exponent : List Char → Prop
  | none : Exponent []
  | minus {ds : List Char} : Digits ds → Exponent ('e' :: '-' :: ds)
  | plus {ds : List Char} : Digits ds → Exponent ('e' :: '+' :: ds)

/-- A numeral without a sign is a whole part, a fraction and an exponent. -/
inductive Unsigned : List Char → Prop
  | parts {whole fraction exponent : List Char} :
      Whole whole → Fraction fraction → Exponent exponent → Unsigned (whole ++ fraction ++ exponent)

/-- A numeral may have a minus before it. -/
inductive Numeral : List Char → Prop
  | unsigned {cs : List Char} : Unsigned cs → Numeral cs
  | negative {cs : List Char} : Unsigned cs → Numeral ('-' :: cs)

theorem Unsigned.whole {cs : List Char} (h : Whole cs) : Unsigned cs := by
  have hparts := Unsigned.parts h .none .none
  rwa [List.append_nil, List.append_nil] at hparts

theorem Unsigned.point {whole ds : List Char} (hw : Whole whole) (hds : Digits ds) :
    Unsigned (whole ++ '.' :: ds) := by
  have hparts := Unsigned.parts hw (.digits hds) .none
  rwa [List.append_nil] at hparts

/-! ### Scanning a numeral -/

/-- No digit comes first. -/
def NoDigit (t : List Char) : Prop := ∀ c ∈ t.head?, c.isDigit = false

/-- Nothing comes first that could go on with a numeral. -/
def EndsNumeral (t : List Char) : Prop :=
  ∀ c ∈ t.head?, c.isDigit = false ∧ c ≠ '.' ∧ c ≠ 'e' ∧ c ≠ 'E'

theorem EndsNumeral.noDigit {t : List Char} (h : EndsNumeral t) : NoDigit t :=
  fun c hc => (h c hc).1

theorem EndsNumeral.no_point {t : List Char} (h : EndsNumeral t) : t.head? ≠ some '.' :=
  fun hpoint => (h '.' hpoint).2.1 rfl

variable {ds t : List Char}

theorem takeDigits_append (hds : ∀ c ∈ ds, c.isDigit = true) (ht : NoDigit t) :
    (takeDigits (ds ++ t)).1 = ds ∧ (takeDigits (ds ++ t)).2.1 = t := by
  have htake : t.takeWhile Char.isDigit = [] ∧ t.dropWhile Char.isDigit = t := by
    cases t with
    | nil => exact ⟨rfl, rfl⟩
    | cons c t => simp [ht c rfl]
  constructor
  · show (ds ++ t).takeWhile Char.isDigit = ds
    rw [List.takeWhile_append_of_pos hds, htake.1, List.append_nil]
  · show (ds ++ t).dropWhile Char.isDigit = t
    rw [List.dropWhile_append_of_pos hds, htake.2]

theorem outcome_takeSomeDigits (atEnd : ReadError) (hds : Digits ds) (ht : NoDigit t) :
    outcome (takeSomeDigits atEnd (ds ++ t)) = some (ds, t) := by
  cases ds with
  | nil => exact absurd rfl hds.ne_nil
  | cons c ds =>
    obtain ⟨htaken, hleft⟩ :=
      takeDigits_append (fun d hd => hds.isDigit d (List.mem_cons_of_mem _ hd)) ht
    rw [List.cons_append, takeSomeDigits, if_pos (hds.isDigit c List.mem_cons_self)]
    show some (c :: (takeDigits (ds ++ t)).1, (takeDigits (ds ++ t)).2.1) = _
    rw [htaken, hleft]

theorem outcome_takeWhole (atEnd : ReadError) (hds : Whole ds) (ht : NoDigit t) :
    outcome (takeWhole atEnd (ds ++ t)) = some (ds, t) := by
  obtain ⟨hlt, hdigits⟩ := outcome_eq_some_iff.mp (outcome_takeSomeDigits atEnd hds.toDigits ht)
  have halone : ¬(ds.head? = some '0' ∧ ds.length ≠ 1) := fun h => h.2 (hds.alone h.1)
  rw [takeWhole, hdigits]
  simp only [bind, Except.bind, if_neg halone]
  rfl

theorem outcome_takeFraction_none (atEnd : ReadError) (hpoint : t.head? ≠ some '.') :
    outcome (takeFraction atEnd t) = some (none, t) := by
  cases t with
  | nil => rfl
  | cons c t =>
    rw [takeFraction]
    · rfl
    · rintro r ⟨⟩
      exact hpoint rfl

theorem outcome_takeExponent_none (atEnd : ReadError) (ht : EndsNumeral t) :
    outcome (takeExponent atEnd t) = some (none, t) := by
  cases t with
  | nil => rfl
  | cons c t =>
    obtain ⟨-, -, he, hE⟩ := ht c rfl
    exact congrArg outcome (if_neg (not_or.mpr ⟨he, hE⟩))

theorem outcome_takeFraction (atEnd : ReadError) {fraction : List Char} (hf : Fraction fraction)
    (ht : NoDigit t) (hpoint : t.head? ≠ some '.') :
    ∃ read, outcome (takeFraction atEnd (fraction ++ t)) = some (read, t) := by
  cases hf with
  | none => exact ⟨none, outcome_takeFraction_none atEnd hpoint⟩
  | digits hds =>
    obtain ⟨hlt, hdigits⟩ := outcome_eq_some_iff.mp (outcome_takeSomeDigits atEnd hds ht)
    rw [List.cons_append, takeFraction, hdigits]
    exact ⟨some _, rfl⟩

theorem outcome_takeExponent (atEnd : ReadError) {exponent : List Char} (he : Exponent exponent)
    (ht : EndsNumeral t) :
    ∃ read, outcome (takeExponent atEnd (exponent ++ t)) = some (read, t) := by
  cases he with
  | none => exact ⟨none, outcome_takeExponent_none atEnd ht⟩
  | minus hds =>
    obtain ⟨hlt, hdigits⟩ := outcome_eq_some_iff.mp (outcome_takeSomeDigits atEnd hds ht.noDigit)
    simp only [List.cons_append, takeExponent, true_or, if_true, hdigits, bind, Except.bind]
    exact ⟨_, rfl⟩
  | plus hds =>
    obtain ⟨hlt, hdigits⟩ := outcome_eq_some_iff.mp (outcome_takeSomeDigits atEnd hds ht.noDigit)
    simp only [List.cons_append, takeExponent, true_or, if_true, hdigits, bind, Except.bind]
    exact ⟨_, rfl⟩

/-- A numeral without a sign is taken to its end. -/
theorem outcome_takeUnsigned (atEnd : ReadError) (negative : Bool) {cs : List Char}
    (h : Unsigned cs) (ht : EndsNumeral t) :
    ∃ read, outcome (takeUnsigned atEnd negative (cs ++ t)) = some (read, t) := by
  obtain @⟨whole, fraction, exponent, hw, hf, he⟩ := h
  have hexponent : NoDigit (exponent ++ t) ∧ (exponent ++ t).head? ≠ some '.' := by
    cases he with
    | none => exact ⟨ht.noDigit, ht.no_point⟩
    | minus hds => simp [NoDigit]
    | plus hds => simp [NoDigit]
  have hfraction : NoDigit (fraction ++ (exponent ++ t)) := by
    cases hf with
    | none => exact hexponent.1
    | digits hds => simp [NoDigit]
  obtain ⟨hlt, hwhole⟩ := outcome_eq_some_iff.mp (outcome_takeWhole atEnd hw hfraction)
  obtain ⟨readFraction, hread⟩ := outcome_takeFraction atEnd hf hexponent.1 hexponent.2
  obtain ⟨readExponent, hread'⟩ := outcome_takeExponent atEnd he ht
  obtain ⟨hle, hread⟩ := outcome_eq_some_iff.mp hread
  obtain ⟨hle', hread'⟩ := outcome_eq_some_iff.mp hread'
  rw [List.append_assoc, List.append_assoc, takeUnsigned, hwhole]
  simp only [bind, Except.bind, hread, hread']
  exact ⟨_, rfl⟩

theorem Unsigned.exists_digit {cs : List Char} (h : Unsigned cs) :
    ∃ c r, cs = c :: r ∧ c.isDigit = true := by
  obtain @⟨whole, fraction, exponent, hw, -, -⟩ := h
  obtain ⟨c, r, rfl⟩ := List.exists_cons_of_ne_nil hw.ne_nil
  exact ⟨c, _, rfl, hw.isDigit c List.mem_cons_self⟩

/-- A numeral is taken to its end. -/
theorem outcome_takeNumberText (atEnd : ReadError) {cs : List Char} (h : Numeral cs)
    (ht : EndsNumeral t) : ∃ read, outcome (takeNumberText atEnd (cs ++ t)) = some (read, t) := by
  cases h with
  | unsigned h =>
    obtain ⟨read, hread⟩ := outcome_takeUnsigned atEnd false h ht
    refine ⟨read, ?_⟩
    obtain ⟨c, r, rfl, hdigit⟩ := h.exists_digit
    rw [takeNumberText]
    · exact hread
    · rintro r' ⟨⟩
      cases hdigit
  | negative h =>
    obtain ⟨read, hread⟩ := outcome_takeUnsigned atEnd true h ht
    obtain ⟨hlt, hread⟩ := outcome_eq_some_iff.mp hread
    refine ⟨read, ?_⟩
    rw [List.cons_append, takeNumberText, hread]
    rfl

/-! ### Written numbers -/

theorem digits_toDigits (n : Nat) : Digits (Nat.toDigits 10 n) where
  ne_nil := Nat.toDigits_ne_nil
  isDigit _ hc := Nat.isDigit_of_mem_toDigits (by decide) (by decide) hc

theorem head?_toDigits_ne {n : Nat} (hn : 0 < n) : (Nat.toDigits 10 n).head? ≠ some '0' := by
  induction n using Nat.strongRecOn with
  | ind n ih =>
    by_cases hlt : n < 10
    · rw [Nat.toDigits_of_lt_base hlt, List.head?_singleton, ne_eq, Option.some.injEq,
        Nat.digitChar_eq_zero]
      omega
    · rw [Nat.toDigits_of_base_le (by decide) (Nat.not_lt.mp hlt),
        List.head?_append, List.head?_eq_some_head Nat.toDigits_ne_nil, Option.some_or,
        ← List.head?_eq_some_head]
      exact ih (n / 10) (by omega) (by omega)

theorem whole_toDigits (n : Nat) : Whole (Nat.toDigits 10 n) where
  toDigits := digits_toDigits n
  alone h := by
    rcases Nat.eq_zero_or_pos n with rfl | hn
    · rfl
    · exact absurd h (head?_toDigits_ne hn)

/-- Digits of which the first is no zero. -/
structure Significant (ds : List Char) : Prop extends Digits ds where
  head?_ne : ds.head? ≠ some '0'

theorem significant_toDigits {n : Nat} (hn : 0 < n) : Significant (Nat.toDigits 10 n) where
  toDigits := digits_toDigits n
  head?_ne := head?_toDigits_ne hn

theorem isDigit_of_mem_replicate {n : Nat} {c : Char} (h : c ∈ List.replicate n '0') :
    c.isDigit = true := by
  rw [List.eq_of_mem_replicate h]
  rfl

/-- Digits with a point among them or zeros after them are a numeral. -/
theorem unsigned_pointAfter (n : Nat) (h : Significant ds) :
    Unsigned (Binary64.pointAfter (n + 1) ds) := by
  obtain ⟨c, rest, rfl⟩ := List.exists_cons_of_ne_nil h.ne_nil
  apply Unsigned.point
  · refine ⟨⟨by simp, ?_⟩, fun hhead => absurd hhead h.head?_ne⟩
    rw [List.forall_mem_append]
    exact ⟨fun d hd => h.isDigit d (List.mem_of_mem_take hd), fun d => isDigit_of_mem_replicate⟩
  · split
    · exact ⟨by simp, fun d => isDigit_of_mem_replicate (n := 1)⟩
    · next hfraction => exact ⟨hfraction, fun d hd => h.isDigit d (List.mem_of_mem_drop hd)⟩

theorem unsigned_belowOne (n : Nat) (h : Digits ds) :
    Unsigned ("0.".toList ++ List.replicate n '0' ++ ds) := by
  have hdigits : Digits (List.replicate n '0' ++ ds) := by
    refine ⟨List.append_ne_nil_of_right_ne_nil _ h.ne_nil, ?_⟩
    rw [List.forall_mem_append]
    exact ⟨fun d => isDigit_of_mem_replicate, h.isDigit⟩
  exact Unsigned.point (whole_toDigits 0) hdigits

theorem unsigned_scientific (h : Digits ds) {exponent : List Char} (he : Exponent exponent) :
    Unsigned ((ds.take 1 ++ if ds.drop 1 = [] then [] else '.' :: ds.drop 1) ++ exponent) := by
  obtain ⟨c, rest, rfl⟩ := List.exists_cons_of_ne_nil h.ne_nil
  refine .parts ⟨⟨by simp, ?_⟩, fun _ => rfl⟩ ?_ he
  · exact fun d hd => h.isDigit d (List.mem_of_mem_take hd)
  · split
    · exact .none
    · next hfraction => exact .digits ⟨hfraction, fun d hd => h.isDigit d (List.mem_of_mem_drop hd)⟩

theorem unsigned_write {d : Binary64.Decimal} (hd : 0 < d.digits) :
    Unsigned (Number.layout.write d).toList := by
  have hdigits := significant_toDigits hd
  unfold Binary64.Layout.write
  extract_lets digits first fraction significand sign
  split
  · split
    · rw [String.toList_ofList]
      exact unsigned_pointAfter _ hdigits
    · rw [String.toList_ofList]
      exact unsigned_belowOne _ hdigits.toDigits
  · have hexponent : Exponent ('e' :: sign.toList ++ Nat.toDigits 10 first.natAbs) := by
      dsimp only [sign]
      split
      · exact .minus (digits_toDigits _)
      · exact .plus (digits_toDigits _)
    have htext : (String.ofList significand ++ "e" ++ sign ++ toString first.natAbs).toList =
        significand ++ ('e' :: sign.toList ++ Nat.toDigits 10 first.natAbs) := by
      simp [Nat.toString_eq_repr, Nat.toList_repr]
    show Unsigned (String.ofList significand ++ "e" ++ sign ++ toString first.natAbs).toList
    rw [htext]
    exact unsigned_scientific hdigits.toDigits hexponent

/-- Numbers that JSON can hold: all but infinities and what is not a number. -/
def Number.isFinite : Number → Bool
  | int _ => true
  | float x => x.isFinite

theorem numeral_toText {n : Number} (hn : n.isFinite = true) : Numeral n.toText.toList := by
  cases n with
  | int n =>
    show Numeral (toString n).toList
    rw [Int.toString_eq_repr, Int.repr_eq_if]
    split
    · rw [Nat.toList_repr]
      exact .unsigned (.whole (whole_toDigits _))
    · rw [String.toList_append, Nat.toList_repr]
      exact .negative (.whole (whole_toDigits _))
  | float x =>
    cases x with
    | nan => cases hn
    | infinite s => cases hn
    | finite s m e =>
      have hunsigned : Unsigned
          (if m = 0 then "0.0" else Number.layout.write (Binary64.shortest m e)).toList := by
        split
        · exact Unsigned.point (whole_toDigits 0) (digits_toDigits 0)
        · next hm => exact unsigned_write (Binary64.digits_shortest_pos (Nat.pos_of_ne_zero hm) e)
      show Numeral ((if s then "-" else "") ++ _).toList
      rw [String.toList_append]
      cases s with
      | false => exact .unsigned hunsigned
      | true => exact .negative hunsigned

end AccessPolicy.Json
