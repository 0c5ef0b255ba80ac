import AccessPolicy.Proofs.Json.Agreement
import AccessPolicy.Proofs.KeyMap

/-! Reading any value from its text. Values are read back as they were written, if their objects
list their keys in order and each once, their numbers are integers of 64 bits, and no more
containers are nested than may be. -/

namespace AccessPolicy.Json

variable {t : List Char}

/-! ### Integers -/

theorem hexValue?_of_isDigit {c : Char} (hc : c.isDigit = true) :
    hexValue? c = some (c.toNat - '0'.toNat) := by
  rw [Char.isDigit, Bool.and_eq_true, decide_eq_true_eq, decide_eq_true_eq] at hc
  exact if_pos hc

theorem digitsValue_eq {ds : List Char} (hds : ∀ c ∈ ds, c.isDigit = true) :
    digitsValue ds = Nat.ofDigitChars 10 ds 0 := by
  have hfoldl : ∀ n, ds.foldl (fun n c => n * 10 + (hexValue? c).getD 0) n =
      Nat.ofDigitChars 10 ds n := by
    induction ds with
    | nil => exact fun n => rfl
    | cons c ds ih =>
      intro n
      obtain ⟨hc, hds⟩ := List.forall_mem_cons.mp hds
      rw [List.foldl_cons, ih hds, hexValue?_of_isDigit hc, Nat.mul_comm n 10]
      rfl
  exact hfoldl 0

/-- The digits of a natural have its value. -/
theorem digitsValue_toDigits (n : Nat) : digitsValue (Nat.toDigits 10 n) = n := by
  rw [digitsValue_eq (digits_toDigits n).isDigit, Nat.ofDigitChars_toDigits (by decide) (by decide)]

theorem outcome_takeUnsigned_whole (atEnd : ReadError) (negative : Bool) {ds : List Char}
    (hds : Whole ds) (ht : EndsNumeral t) :
    outcome (takeUnsigned atEnd negative (ds ++ t)) = some (⟨negative, ds, none, none⟩, t) := by
  obtain ⟨hlt, hwhole⟩ := outcome_eq_some_iff.mp (outcome_takeWhole atEnd hds ht.noDigit)
  obtain ⟨hle, hfraction⟩ := outcome_eq_some_iff.mp (outcome_takeFraction_none atEnd ht.no_point)
  obtain ⟨hle', hexponent⟩ := outcome_eq_some_iff.mp (outcome_takeExponent_none atEnd ht)
  rw [takeUnsigned, hwhole]
  simp only [bind, Except.bind, hfraction, hexponent]
  rfl

theorem outcome_takeNumber {cs : List Char} {text : NumberText} {n : Number}
    (htext : outcome (takeNumberText .endInValue cs) = some (text, t))
    (hn : text.toNumber = .ok n) : outcome (takeNumber cs) = some (n, t) := by
  obtain ⟨hlt, htext⟩ := outcome_eq_some_iff.mp htext
  rw [takeNumber, htext]
  simp only [bind, Except.bind, hn]
  rfl

theorem outcome_takeNumber_unsigned {n : Nat} (hn : n < Nat.pow 2 64) (ht : EndsNumeral t) :
    outcome (takeNumber (Nat.toDigits 10 n ++ t)) = some (.int n, t) := by
  have hwhole := outcome_takeUnsigned_whole .endInValue false (whole_toDigits n) ht
  have htext : takeNumberText .endInValue (Nat.toDigits 10 n ++ t) =
      takeUnsigned .endInValue false (Nat.toDigits 10 n ++ t) := by
    obtain ⟨c, r, hcons, hdigit⟩ := (Unsigned.whole (whole_toDigits n)).exists_digit
    rw [hcons, List.cons_append, takeNumberText]
    rintro r' ⟨⟩
    cases hdigit
  refine outcome_takeNumber (htext ▸ hwhole) ?_
  rw [NumberText.toNumber, digitsValue_toDigits]
  exact if_pos (decide_eq_true hn)

theorem outcome_takeNumber_negative {n : Nat} (hpos : 0 < n) (hn : n ≤ Nat.pow 2 63)
    (ht : EndsNumeral t) :
    outcome (takeNumber ('-' :: (Nat.toDigits 10 n ++ t))) = some (.int (-n), t) := by
  obtain ⟨hlt, hwhole⟩ :=
    outcome_eq_some_iff.mp (outcome_takeUnsigned_whole .endInValue true (whole_toDigits n) ht)
  have htext : outcome (takeNumberText .endInValue ('-' :: (Nat.toDigits 10 n ++ t))) =
      some (⟨true, Nat.toDigits 10 n, none, none⟩, t) := by
    rw [takeNumberText, hwhole]
    rfl
  refine outcome_takeNumber htext ?_
  rw [NumberText.toNumber, digitsValue_toDigits]
  exact (if_neg Bool.false_ne_true).trans
    (if_pos (Bool.and_eq_true_iff.mpr ⟨decide_eq_true hpos, decide_eq_true hn⟩))

/-- Integers that JSON numbers of 64 bits can hold, with or without sign. -/
def Holds64 (n : Int) : Prop := -(Nat.pow 2 63 : Nat) ≤ n ∧ n < (Nat.pow 2 64 : Nat)

/-- An integer of 64 bits is read back. -/
theorem outcome_takeNumber_int {n : Int} (hn : Holds64 n) (ht : EndsNumeral t) :
    outcome (takeNumber ((toString n).toList ++ t)) = some (.int n, t) := by
  obtain ⟨hmin, hmax⟩ := hn
  rw [Int.toString_eq_repr, Int.repr_eq_if]
  by_cases hsign : 0 ≤ n
  · rw [if_pos hsign, Nat.toList_repr, outcome_takeNumber_unsigned (by omega) ht,
      Int.toNat_of_nonneg hsign]
  · have hlist : ("-" ++ (-n).toNat.repr).toList ++ t =
        '-' :: (Nat.toDigits 10 (-n).toNat ++ t) := by
      rw [String.toList_append, Nat.toList_repr]
      rfl
    rw [if_neg hsign, hlist, outcome_takeNumber_negative (by omega) (by omega) ht,
      Int.toNat_of_nonneg (by omega), Int.neg_neg]

/-! ### Values -/

/-- Values that reading text gives back, where so many containers may be nested. -/
inductive Fits : Nat → Json → Prop
  | null {room : Nat} : Fits room .null
  | bool {room : Nat} (b : Bool) : Fits room (.bool b)
  | int {room : Nat} {n : Int} : Holds64 n → Fits room (.number (.int n))
  | string {room : Nat} (s : String) : Fits room (.string s)
  | array {room : Nat} {vs : List Json} : (∀ v ∈ vs, Fits room v) → Fits (room + 1) (.array vs)
  | map {room : Nat} {m : KeyMap Json} : (∀ e ∈ m.toList, Fits room e.2) →
      Fits (room + 1) (.ofMap m)

attribute [simp] Fits.null Fits.bool Fits.string

theorem Fits.finite {room : Nat} {v : Json} (h : Fits room v) : v.Finite := by
  induction h with
  | null => exact .null
  | bool b => exact .bool b
  | int hn => exact .number rfl
  | string s => exact .string s
  | array _ ih => exact .array ih
  | map _ ih => exact .object ih

theorem outcome_anyOfText_string (room : Nat) (r : List Char) :
    outcome (anyOfText room ('"' :: r)) =
      (outcome (takeString r)).map fun p => (Json.string p.1, p.2) := by
  rw [anyOfText]
  exact outcome_within (takeString r) Json.string _

theorem outcome_anyOfText_array (room : Nat) (r : List Char) :
    outcome (anyOfText (room + 1) ('[' :: r)) =
      (outcome (items (anyOfText room) r)).map fun p => (Json.array p.1, p.2) := by
  rw [anyOfText]
  exact outcome_within (items (anyOfText room) r) Json.array _

theorem outcome_anyOfText_object (room : Nat) (r : List Char) :
    outcome (anyOfText (room + 1) ('{' :: r)) =
      (outcome (entries (mapEntry (anyOfText room)) .empty r)).map fun p => (ofMap p.1, p.2) := by
  rw [anyOfText]
  exact outcome_within (entries (mapEntry (anyOfText room)) .empty r) ofMap _

theorem outcome_anyOfText_number {c : Char} (hc : c = '-' ∨ c.isDigit = true) (room : Nat)
    (r : List Char) :
    outcome (anyOfText room (c :: r)) =
      (outcome (takeNumber (c :: r))).map fun p => (Json.number p.1, p.2) := by
  have hs : skipBlank (c :: r) = c :: r :=
    skipBlank_cons (Starts.number (n := .int 0) hc).not_blank r
  have hne : ∀ {d r'}, d ≠ '-' ∧ d.isDigit = false → skipBlank (c :: r) ≠ d :: r' := by
    intro d r' hd h
    exact ne_of_sign_or_digit hc hd (List.cons.inj (hs.symm.trans h)).1
  rw [anyOfText]
  split
  · next h => cases hs.symm.trans h
  · next h => exact absurd h (hne (by decide))
  · next h => exact absurd h (hne (by decide))
  · next h => exact absurd h (hne (by decide))
  · next h => exact absurd h (hne (by decide))
  · next h => exact absurd h (hne (by decide))
  · next h => exact absurd h (hne (by decide))
  · next h =>
    obtain ⟨rfl, rfl⟩ := List.cons.inj (hs.symm.trans h)
    rw [if_pos hc]
    exact outcome_within (takeNumber (c :: r)) Json.number _

/-- The entries of a map make the map again. -/
theorem foldlM_insert_toList (m : KeyMap Json) :
    m.toList.foldlM (fun (n : KeyMap Json) e => do return n.insert e.1 (← Except.ok e.2)) .empty =
      (Except.ok m : Except ReadError (KeyMap Json)) := by
  exact List.foldlM_pure.trans (congrArg Except.ok (KeyMap.ofList_eq_of_perm (.refl m.toList)))

/-- Any value that fits is read back from its text. -/
theorem Fits.agreesOn_any {room : Nat} {v : Json} (h : Fits room v) :
    AgreesOn (anyOfText room) .ok v := by
  induction h with
  | null =>
    intro t _
    show outcome (anyOfText _ ('n' :: 'u' :: 'l' :: 'l' :: t)) = some (Json.null, t)
    rw [anyOfText]
    rfl
  | bool b =>
    intro t _
    cases b with
    | true =>
      show outcome (anyOfText _ ('t' :: 'r' :: 'u' :: 'e' :: t)) = some (Json.bool true, t)
      rw [anyOfText]
      rfl
    | false =>
      show outcome (anyOfText _ ('f' :: 'a' :: 'l' :: 's' :: 'e' :: t)) = some (Json.bool false, t)
      rw [anyOfText]
      rfl
  | @int room n hn =>
    intro t ht
    have hnumber := outcome_takeNumber_int hn ht
    obtain ⟨c, r, hcons, hc⟩ := (numeral_toText (n := .int n) rfl).exists_cons
    show outcome (anyOfText _ ((Number.int n).toText.toList ++ t)) = some (Json.number (.int n), t)
    rw [show (toString n).toList = c :: r from hcons] at hnumber
    rw [hcons, List.cons_append, outcome_anyOfText_number hc, ← List.cons_append, hnumber]
    rfl
  | string s =>
    intro t _
    rw [print_string_append, outcome_anyOfText_string, outcome_takeString_printed]
    rfl
  | @array room vs hvs ih =>
    intro t _
    have hitems : vs.mapM (m := Except ReadError) .ok = .ok vs :=
      List.mapM_pure.trans (congrArg Except.ok (List.map_id vs))
    rw [print_array_append, outcome_anyOfText_array,
      outcome_items_printed (fun v hv => (hvs v hv).finite) ih, hitems]
    rfl
  | @map room m hm ih =>
    intro t _
    show outcome (anyOfText _ ((Json.object m.toList).print ++ t)) = some (ofMap m, t)
    rw [print_object_append, outcome_anyOfText_object,
      outcome_entries_printed (fun e he => entryAgreesOn_map (ih e he)), foldlM_insert_toList]
    rfl

end AccessPolicy.Json
