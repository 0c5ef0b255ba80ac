import AccessPolicy.Json.Skip
import AccessPolicy.Proofs.Json.Printer

/-! Passing over a value that has been written: whatever it holds, and however deep, what follows it
is left. The first part tells what one step of the walk over the open containers leaves; the second
part follows the walk over a written value. -/

namespace AccessPolicy.Json

variable {s r t : List Char} {stack : List Container}

/-! ### One step -/

theorem leaves_skip_list (stack : List Container) (r : List Char) :
    leaves (skip .value stack ('[' :: r)) = leaves (skip .opened (.list :: stack) r) := by
  rw [skip]
  exact leaves_within (skip .opened (.list :: stack) r) _

theorem leaves_skip_object (stack : List Container) (r : List Char) :
    leaves (skip .value stack ('{' :: r)) = leaves (skip .opened (.object :: stack) r) := by
  rw [skip]
  exact leaves_within (skip .opened (.object :: stack) r) _

theorem leaves_skip_scalar {c : Char} (hs : skipBlank s = c :: r) (hlist : c ≠ '[')
    (hobject : c ≠ '{') (hscalar : leaves (passScalar c r) = some t) :
    leaves (skip .value stack s) = leaves (skip .closed stack t) := by
  rw [skip]
  split
  · next h => cases hs.symm.trans h
  · next h => exact absurd (List.cons.inj (hs.symm.trans h)).1 hlist
  · next h => exact absurd (List.cons.inj (hs.symm.trans h)).1 hobject
  · next h =>
    obtain ⟨rfl, rfl⟩ := List.cons.inj (hs.symm.trans h)
    exact leaves_bind hscalar fun _ => leaves_within (skip .closed stack t) _

theorem leaves_skip_noItem (stack : List Container) (r : List Char) :
    leaves (skip .opened (.list :: stack) (']' :: r)) = leaves (skip .closed stack r) := by
  rw [skip]
  exact leaves_within (skip .closed stack r) _

theorem skip_firstItem {c : Char} (hs : skipBlank s = c :: r) (hc : c ≠ ']') :
    skip .opened (.list :: stack) s = skip .value (.list :: stack) s := by
  conv => lhs; rw [skip]
  split
  · next h => cases hs.symm.trans h
  · next h =>
    obtain ⟨rfl, rfl⟩ := List.cons.inj (hs.symm.trans h)
    exact if_neg hc

theorem leaves_skip_nextItem (stack : List Container) (r : List Char) :
    leaves (skip .closed (.list :: stack) (',' :: r)) =
      leaves (skip .value (.list :: stack) r) := by
  conv => lhs; rw [skip]
  exact leaves_within (skip .value (.list :: stack) r) _

theorem leaves_skip_lastItem (stack : List Container) (r : List Char) :
    leaves (skip .closed (.list :: stack) (']' :: r)) = leaves (skip .closed stack r) := by
  rw [skip]
  exact leaves_within (skip .closed stack r) _

theorem leaves_skip_noEntry (stack : List Container) (r : List Char) :
    leaves (skip .opened (.object :: stack) ('}' :: r)) = leaves (skip .closed stack r) := by
  rw [skip]
  exact leaves_within (skip .closed stack r) _

theorem leaves_skip_firstEntry (hkey : leaves (passKey ('"' :: r)) = some t) :
    leaves (skip .opened (.object :: stack) ('"' :: r)) =
      leaves (skip .value (.object :: stack) t) := by
  conv => lhs; rw [skip]
  exact leaves_bind hkey fun _ => leaves_within (skip .value (.object :: stack) t) _

theorem leaves_skip_nextEntry (hkey : leaves (passKey r) = some t) :
    leaves (skip .closed (.object :: stack) (',' :: r)) =
      leaves (skip .value (.object :: stack) t) := by
  conv => lhs; rw [skip]
  exact leaves_bind hkey fun _ => leaves_within (skip .value (.object :: stack) t) _

theorem leaves_skip_lastEntry (stack : List Container) (r : List Char) :
    leaves (skip .closed (.object :: stack) ('}' :: r)) = leaves (skip .closed stack r) := by
  rw [skip]
  exact leaves_within (skip .closed stack r) _

/-! ### Keys and scalars -/

/-- A key is passed with its colon. -/
theorem leaves_passKey_printed (key : String) (t : List Char) :
    leaves (passKey ('"' :: printKey key ++ t)) = some t := by
  have hstring : leaves (passString (printKey key ++ t)) = some (':' :: t) := by
    rw [printKey, List.append_assoc]
    exact leaves_passString_printed key (':' :: t)
  exact leaves_bind hstring fun _ => rfl

theorem leaves_takeWord (word t : List Char) : leaves (takeWord word (word ++ t)) = some t := by
  induction word with
  | nil => cases t <;> rfl
  | cons w word ih =>
    obtain ⟨hle, hword⟩ := leaves_eq_some_iff.mp ih
    rw [List.cons_append, takeWord, if_pos rfl, hword]
    rfl

theorem leaves_passScalar_numeral {c : Char} {cs : List Char} (h : Numeral (c :: cs))
    (ht : EndsNumeral t) : leaves (passScalar c (cs ++ t)) = some t := by
  obtain ⟨_, _, ⟨rfl, rfl⟩, hc⟩ := h.exists_cons
  obtain ⟨read, hread⟩ :
      ∃ read, outcome (takeNumberText .invalidNumber (c :: (cs ++ t))) = some (read, t) :=
    outcome_takeNumberText .invalidNumber h ht
  obtain ⟨hlt, hread⟩ := outcome_eq_some_iff.mp hread
  rw [passScalar]
  · rw [if_pos hc, hread]
    rfl
  all_goals exact ne_of_sign_or_digit hc (by decide)

theorem leaves_passScalar_string (s : String) (t : List Char) :
    leaves (passScalar '"' (s.toList.flatMap escapedChar ++ '"' :: t)) = some t := by
  rw [← leaves_passString_printed s t]
  exact leaves_within (passString (s.toList.flatMap escapedChar ++ '"' :: t)) _

/-! ### Written values -/

theorem leaves_skip_moreItems {vs : List Json}
    (hvs : ∀ v ∈ vs, ∀ stack t, EndsNumeral t →
      leaves (skip .value stack (v.print ++ t)) = leaves (skip .closed stack t))
    (stack : List Container) (t : List Char) :
    leaves (skip .closed (.list :: stack) (printMoreItems vs ++ ']' :: t)) =
      leaves (skip .closed stack t) := by
  induction vs with
  | nil => exact leaves_skip_lastItem stack t
  | cons v vs ih =>
    rw [printMoreItems_cons_append, leaves_skip_nextItem,
      hvs v List.mem_cons_self _ _ (endsNumeral_moreItems vs t)]
    exact ih fun w hw => hvs w (List.mem_cons_of_mem _ hw)

theorem leaves_skip_moreEntries {es : List (String × Json)}
    (hes : ∀ e ∈ es, ∀ stack t, EndsNumeral t →
      leaves (skip .value stack (e.2.print ++ t)) = leaves (skip .closed stack t))
    (stack : List Container) (t : List Char) :
    leaves (skip .closed (.object :: stack) (printMoreEntries es ++ '}' :: t)) =
      leaves (skip .closed stack t) := by
  induction es with
  | nil => exact leaves_skip_lastEntry stack t
  | cons e es ih =>
    rw [printMoreEntries_cons_append, leaves_skip_nextEntry (leaves_passKey_printed e.1 _),
      hes e List.mem_cons_self _ _ (endsNumeral_moreEntries es t)]
    exact ih fun f hf => hes f (List.mem_cons_of_mem _ hf)

/-- After a value, the walk goes on in the container that the value is in. -/
theorem leaves_skip_print {v : Json} (hv : v.Finite) :
    ∀ stack t, EndsNumeral t →
      leaves (skip .value stack (v.print ++ t)) = leaves (skip .closed stack t) := by
  induction hv with
  | null =>
    intro stack t _
    exact leaves_skip_scalar rfl (by decide) (by decide) (leaves_takeWord "ull".toList t)
  | bool b =>
    intro stack t _
    cases b with
    | false =>
      exact leaves_skip_scalar rfl (by decide) (by decide) (leaves_takeWord "alse".toList t)
    | true => exact leaves_skip_scalar rfl (by decide) (by decide) (leaves_takeWord "rue".toList t)
  | @number n hn =>
    intro stack t ht
    have hnumeral := numeral_toText hn
    obtain ⟨c, cs, hcons, hc⟩ := hnumeral.exists_cons
    rw [hcons] at hnumeral
    have hblank : isBlank c = false := (Starts.number hc (n := n)).not_blank
    rw [print, hcons]
    exact leaves_skip_scalar (skipBlank_cons hblank _) (ne_of_sign_or_digit hc (by decide))
      (ne_of_sign_or_digit hc (by decide)) (leaves_passScalar_numeral hnumeral ht)
  | string s =>
    intro stack t _
    rw [print_string_append]
    exact leaves_skip_scalar rfl (by decide) (by decide) (leaves_passScalar_string s t)
  | @array vs hvs ih =>
    intro stack t _
    rw [print_array_append, leaves_skip_list]
    cases vs with
    | nil => exact leaves_skip_noItem stack t
    | cons v vs =>
      obtain ⟨hv, -⟩ := List.forall_mem_cons.mp hvs
      obtain ⟨ihv, ihvs⟩ := List.forall_mem_cons.mp ih
      obtain ⟨c, r, -, hblank, hstarts⟩ := hv.exists_skipBlank (printMoreItems vs ++ ']' :: t)
      rw [printItems_cons, List.append_assoc, skip_firstItem hblank hstarts.ne_closing.1,
        ihv _ _ (endsNumeral_moreItems vs t)]
      exact leaves_skip_moreItems ihvs stack t
  | @object es hes ih =>
    intro stack t _
    rw [print_object_append, leaves_skip_object]
    cases es with
    | nil => exact leaves_skip_noEntry stack t
    | cons e es =>
      obtain ⟨ihe, ihes⟩ := List.forall_mem_cons.mp ih
      rw [printEntries_cons, List.append_assoc, List.append_assoc]
      show leaves (skip .opened (.object :: stack) ('"' :: _)) = _
      rw [leaves_skip_firstEntry (leaves_passKey_printed e.1 _),
        ihe _ _ (endsNumeral_moreEntries es t)]
      exact leaves_skip_moreEntries ihes stack t

/-- Nothing but the value is passed over. -/
theorem leaves_skipValue_print {v : Json} (hv : v.Finite) {t : List Char} (ht : EndsNumeral t) :
    leaves (skipValue (v.print ++ t)) = some t := by
  rw [skipValue, leaves_skip_print hv [] t ht, skip]
  rfl

end AccessPolicy.Json
