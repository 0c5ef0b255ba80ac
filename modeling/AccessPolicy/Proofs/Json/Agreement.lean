import AccessPolicy.Json.Reader
import AccessPolicy.Proofs.Json.Skip

/-! The two sides of a reader agree: from the text of a value it reads what it reads from the value,
and leaves what follows, or it fails on both. What follows must not go on with a numeral. Lists,
maps and records of readers whose sides agree have sides that agree, as long as the text may nest
the containers that are read; a field that is not read may nest as many as it likes. The faults need
not be the same, since a text is given up at the first one. -/

namespace AccessPolicy.Json

variable {α β σ : Type}

/-! ### The next item or entry -/

theorem outcome_items_none (item : (s : List Char) → Step α s) (r : List Char) :
    outcome (items item (']' :: r)) = some ([], r) := rfl

theorem outcome_moreItems_none (item : (s : List Char) → Step α s) (r : List Char) :
    outcome (moreItems item (']' :: r)) = some ([], r) := by
  rw [moreItems]
  rfl

theorem outcome_items_print (item : (s : List Char) → Step α s) {v : Json} (hv : v.Finite)
    (t : List Char) :
    outcome (items item (v.print ++ t)) = (outcome (item (v.print ++ t))).bind fun p =>
      (outcome (moreItems item p.2)).map fun q => (p.1 :: q.1, q.2) := by
  obtain ⟨c, s, -, hs, hstarts⟩ := hv.exists_skipBlank t
  rw [items]
  split
  · next h => cases hs.symm.trans h
  · next h => exact absurd (List.cons.inj (hs.symm.trans h)).1 hstarts.ne_closing.1
  · conv => rhs; rw [← hv.skipBlank_print t]
    exact outcome_bind fun a r _ => outcome_within (moreItems item r) (a :: ·) _

theorem outcome_moreItems_print (item : (s : List Char) → Step α s) {v : Json} (hv : v.Finite)
    (t : List Char) :
    outcome (moreItems item (',' :: (v.print ++ t))) = (outcome (item (v.print ++ t))).bind fun p =>
      (outcome (moreItems item p.2)).map fun q => (p.1 :: q.1, q.2) := by
  obtain ⟨c, s, -, hs, hstarts⟩ := hv.exists_skipBlank t
  rw [moreItems]
  split
  · next h => cases h
  · next c' r' h =>
    obtain ⟨rfl, rfl⟩ := List.cons.inj (show ',' :: _ = c' :: r' from h)
    rw [if_neg (by decide), if_pos rfl]
    split
    · next h' => cases hs.symm.trans h'
    · next h' => exact absurd (List.cons.inj (hs.symm.trans h')).1 hstarts.ne_closing.1
    · conv => rhs; rw [← hv.skipBlank_print t]
      exact outcome_bind fun a r _ => outcome_within (moreItems item r) (a :: ·) _

theorem outcome_entries_none (entry : EntryStep σ) (state : σ) (r : List Char) :
    outcome (entries entry state ('}' :: r)) = some (state, r) := rfl

theorem outcome_moreEntries_none (entry : EntryStep σ) (state : σ) (r : List Char) :
    outcome (moreEntries entry state ('}' :: r)) = some (state, r) := by
  rw [moreEntries]
  rfl

theorem outcome_entries_next (entry : EntryStep σ) (state : σ) (r : List Char) :
    outcome (entries entry state ('"' :: r)) = (outcome (keyed entry state r)).bind fun p =>
      outcome (moreEntries entry p.1 p.2) :=
  outcome_bind fun state r _ => outcome_after (moreEntries entry state r) _

theorem outcome_moreEntries_next (entry : EntryStep σ) (state : σ) (r : List Char) :
    outcome (moreEntries entry state (',' :: '"' :: r)) =
      (outcome (keyed entry state r)).bind fun p => outcome (moreEntries entry p.1 p.2) := by
  conv => lhs; rw [moreEntries]
  exact outcome_bind fun state r _ => outcome_after (moreEntries entry state r) _

theorem outcome_keyed_printed (entry : EntryStep σ) (state : σ) (key : String) (t : List Char) :
    outcome (keyed entry state (printKey key ++ t)) = outcome (entry state key (':' :: t)) := by
  have hkey : outcome (takeString (printKey key ++ t)) = some (key, ':' :: t) := by
    rw [printKey, List.append_assoc]
    exact outcome_takeString_printed key (':' :: t)
  obtain ⟨hlt, hread⟩ := outcome_eq_some_iff.mp hkey
  rw [keyed, hread]
  exact outcome_after (entry state key (':' :: t)) _

theorem outcome_afterColon (value : (s : List Char) → Step α s) (t : List Char) :
    outcome (afterColon value (':' :: t)) = outcome (value t) :=
  outcome_after (value t) _

/-! ### Written lists and objects -/

/-- From the text of a value, whatever follows it, a step reads what is read from the value. -/
def AgreesOn (ofText : (s : List Char) → Step α s) (ofValue : Json → Except ReadError α)
    (v : Json) : Prop :=
  ∀ t, EndsNumeral t → outcome (ofText (v.print ++ t)) = (ofValue v).toOption.map (·, t)

/-- Items that agree are read one by one, up to the bracket that closes the list. -/
theorem outcome_moreItems_printed {item : (s : List Char) → Step α s}
    {ofValue : Json → Except ReadError α} {vs : List Json} (hvs : ∀ v ∈ vs, v.Finite)
    (h : ∀ v ∈ vs, AgreesOn item ofValue v) (t : List Char) :
    outcome (moreItems item (printMoreItems vs ++ ']' :: t)) =
      (vs.mapM ofValue).toOption.map (·, t) := by
  induction vs with
  | nil => exact outcome_moreItems_none item t
  | cons v vs ih =>
    obtain ⟨hv, hvs⟩ := List.forall_mem_cons.mp hvs
    obtain ⟨hagree, h⟩ := List.forall_mem_cons.mp h
    rw [printMoreItems_cons_append, outcome_moreItems_print item hv,
      hagree _ (endsNumeral_moreItems vs t), List.mapM_cons, toOption_bind]
    cases (ofValue v).toOption with
    | none => rfl
    | some a =>
      show (outcome (moreItems item (printMoreItems vs ++ ']' :: t))).map _ = _
      rw [ih hvs h]
      cases vs.mapM ofValue <;> rfl

/-- The items of an array are read from its text as from the values. -/
theorem outcome_items_printed {item : (s : List Char) → Step α s}
    {ofValue : Json → Except ReadError α} {vs : List Json} (hvs : ∀ v ∈ vs, v.Finite)
    (h : ∀ v ∈ vs, AgreesOn item ofValue v) (t : List Char) :
    outcome (items item (printItems vs ++ ']' :: t)) = (vs.mapM ofValue).toOption.map (·, t) := by
  cases vs with
  | nil => exact outcome_items_none item t
  | cons v vs =>
    -- the first item is read as it would be after a comma
    have hmore := outcome_moreItems_printed hvs h t
    have hv := (List.forall_mem_cons.mp hvs).1
    rw [printMoreItems_cons_append, outcome_moreItems_print item hv] at hmore
    rw [printItems_cons, List.append_assoc, outcome_items_print item hv, hmore]

/-- What an entry makes of a state, from the text after its key and from its value. -/
def EntryAgreesOn (entry : EntryStep σ) (change : σ → String → Json → Except ReadError σ)
    (e : String × Json) : Prop :=
  ∀ state t, EndsNumeral t →
    outcome (entry state e.1 (':' :: (e.2.print ++ t))) =
      (change state e.1 e.2).toOption.map (·, t)

/-- Entries that agree change the state one by one, up to the brace that closes the object. -/
theorem outcome_moreEntries_printed {entry : EntryStep σ}
    {change : σ → String → Json → Except ReadError σ} {es : List (String × Json)}
    (h : ∀ e ∈ es, EntryAgreesOn entry change e) (state : σ) (t : List Char) :
    outcome (moreEntries entry state (printMoreEntries es ++ '}' :: t)) =
      (es.foldlM (fun state e => change state e.1 e.2) state).toOption.map (·, t) := by
  induction es generalizing state with
  | nil => exact outcome_moreEntries_none entry state t
  | cons e es ih =>
    obtain ⟨hagree, h⟩ := List.forall_mem_cons.mp h
    rw [printMoreEntries_cons_append, List.cons_append, outcome_moreEntries_next,
      outcome_keyed_printed, hagree state _ (endsNumeral_moreEntries es t), List.foldlM_cons,
      toOption_bind]
    cases (change state e.1 e.2).toOption with
    | none => rfl
    | some state' => exact ih h state'

theorem outcome_entries_printed {entry : EntryStep σ}
    {change : σ → String → Json → Except ReadError σ} {es : List (String × Json)}
    (h : ∀ e ∈ es, EntryAgreesOn entry change e) (state : σ) (t : List Char) :
    outcome (entries entry state (printEntries es ++ '}' :: t)) =
      (es.foldlM (fun state e => change state e.1 e.2) state).toOption.map (·, t) := by
  cases es with
  | nil => exact outcome_entries_none entry state t
  | cons e es =>
    have hmore := outcome_moreEntries_printed h state t
    rw [printMoreEntries_cons_append, List.cons_append, outcome_moreEntries_next] at hmore
    rw [printEntries_cons, List.append_assoc, List.append_assoc, ← hmore]
    exact outcome_entries_next entry state _

/-- Entries of a map agree if the values in them do. -/
theorem entryAgreesOn_map {value : (s : List Char) → Step α s}
    {ofValue : Json → Except ReadError α} {e : String × Json} (h : AgreesOn value ofValue e.2) :
    EntryAgreesOn (mapEntry value) (fun m key v => do return m.insert key (← ofValue v)) e := by
  intro m t ht
  refine (outcome_within (afterColon value _) (m.insert e.1) (·.2.2)).trans ?_
  rw [outcome_afterColon, h t ht]
  dsimp only
  cases ofValue e.2 <;> rfl

namespace Reader

/-- Where enough containers may still be nested, reading text agrees with reading values. -/
def AgreesFrom (r : Reader α) (depth : Nat) : Prop :=
  ∀ room, depth ≤ room → ∀ v, v.Finite → AgreesOn (r.ofText room) r.ofValue v

theorem AgreesFrom.mono {r : Reader α} {depth depth' : Nat} (h : r.AgreesFrom depth)
    (hle : depth ≤ depth') : r.AgreesFrom depth' :=
  fun room hroom => h room (Nat.le_trans hle hroom)

/-- A reader of containers uses up one of those that may be nested. -/
theorem AgreesFrom.of_entered {r : Reader α} {depth : Nat}
    (h : ∀ room, depth ≤ room → ∀ v, v.Finite → AgreesOn (r.ofText (room + 1)) r.ofValue v) :
    r.AgreesFrom (depth + 1) := by
  intro room hroom
  cases room with
  | zero => cases hroom
  | succ room => exact h room (Nat.le_of_succ_le_succ hroom)

theorem agreesOn_map {r : Reader α} {room : Nat} {v : Json}
    (h : AgreesOn (r.ofText room) r.ofValue v) (f : α → β) :
    AgreesOn ((r.map f).ofText room) (r.map f).ofValue v := by
  intro t ht
  have htext : outcome ((r.map f).ofText room (v.print ++ t)) =
      (outcome (r.ofText room (v.print ++ t))).map fun p => (f p.1, p.2) := by
    show outcome ((r.ofText room (v.print ++ t)).map _) = _
    cases r.ofText room (v.print ++ t) <;> rfl
  rw [htext, h t ht]
  show _ = ((r.ofValue v).map f).toOption.map (·, t)
  cases r.ofValue v <;> rfl

theorem AgreesFrom.map {r : Reader α} {depth : Nat} (h : r.AgreesFrom depth) (f : α → β) :
    (r.map f).AgreesFrom depth :=
  fun room hroom v hv => agreesOn_map (h room hroom v hv) f

/-! ### Strings, lists and maps -/

section OtherKinds

variable {room : Nat} {s : List Char}

theorem outcome_string_other (h : ∀ r, skipBlank s ≠ '"' :: r) :
    outcome (Reader.string.ofText room s) = none := by
  unfold Reader.string
  dsimp only
  split
  · next r hs => exact absurd hs (h r)
  · rfl

theorem outcome_list_other (item : Reader α) (h : ∀ r, skipBlank s ≠ '[' :: r) :
    outcome ((Reader.list item).ofText room s) = none := by
  unfold Reader.list
  dsimp only
  split
  · next r hs => exact absurd hs (h r)
  · rfl

theorem outcome_keyMap_other (value : Reader α) (h : ∀ r, skipBlank s ≠ '{' :: r) :
    outcome ((Reader.keyMap value).ofText room s) = none := by
  unfold Reader.keyMap
  dsimp only
  split
  · next r hs => exact absurd hs (h r)
  · rfl

end OtherKinds

theorem AgreesFrom.string : Reader.string.AgreesFrom 0 := by
  intro room _ v hv t _
  cases v with
  | string s =>
    rw [print_string_append]
    exact (outcome_after (takeString _) _).trans (outcome_takeString_printed s t)
  | _ =>
    have hquote : ∀ r, skipBlank (_ ++ t) ≠ '"' :: r :=
      hv.skipBlank_print_ne (fun h => by simpa using h.eq_string) t
    exact outcome_string_other hquote

section Parts

variable {room : Nat} {v : Json} (hv : v.Finite)
include hv

/-- A list agrees on a value if its items agree on the parts of the value. -/
theorem agreesOn_list {item : Reader α}
    (hparts : ∀ w ∈ v.parts, AgreesOn (item.ofText room) item.ofValue w) :
    AgreesOn ((Reader.list item).ofText (room + 1)) (Reader.list item).ofValue v := by
  intro t _
  cases v with
  | array vs =>
    rw [print_array_append]
    refine (outcome_after (items (item.ofText room) _) _).trans ?_
    exact outcome_items_printed hv.items hparts t
  | _ =>
    have hbracket : ∀ r, skipBlank (_ ++ t) ≠ '[' :: r :=
      hv.skipBlank_print_ne (fun h => by simpa using h.eq_array) t
    exact outcome_list_other item hbracket

/-- A map agrees on a value if its values agree on the parts of the value. -/
theorem agreesOn_keyMap {value : Reader α}
    (hparts : ∀ w ∈ v.parts, AgreesOn (value.ofText room) value.ofValue w) :
    AgreesOn ((Reader.keyMap value).ofText (room + 1)) (Reader.keyMap value).ofValue v := by
  intro t _
  cases v with
  | object es =>
    have hentry : ∀ e ∈ es, AgreesOn (value.ofText room) value.ofValue e.2 :=
      fun e he => hparts e.2 (List.mem_map_of_mem he)
    rw [print_object_append]
    refine (outcome_after (entries (mapEntry (value.ofText room)) _ _) _).trans ?_
    exact outcome_entries_printed (fun e he => entryAgreesOn_map (hentry e he)) .empty t
  | _ =>
    have hbrace : ∀ r, skipBlank (_ ++ t) ≠ '{' :: r :=
      hv.skipBlank_print_ne (fun h => by simpa using h.eq_object) t
    exact outcome_keyMap_other value hbrace

end Parts

/-- A list needs one container more than its items. -/
theorem AgreesFrom.list {item : Reader α} {depth : Nat} (h : item.AgreesFrom depth) :
    (Reader.list item).AgreesFrom (depth + 1) :=
  .of_entered fun room hroom _ hv => agreesOn_list hv fun w hw => h room hroom w (hv.parts w hw)

theorem AgreesFrom.keyMap {value : Reader α} {depth : Nat} (h : value.AgreesFrom depth) :
    (Reader.keyMap value).AgreesFrom (depth + 1) :=
  .of_entered fun room hroom _ hv => agreesOn_keyMap hv fun w hw => h room hroom w (hv.parts w hw)

/-! ### Records -/

section Record

variable {ρ : Type} {fields : List (Field ρ)} {depth room : Nat}

/-- All fields read from the text of a value what they read from the value. -/
def FieldsAgreeOn (fields : List (Field ρ)) (room : Nat) (v : Json) : Prop :=
  ∀ f ∈ fields, AgreesOn (f.change.ofText room) f.change.ofValue v

theorem entryAgreesOn_record {e : String × Json} (he : e.2.Finite)
    (hfields : FieldsAgreeOn fields room e.2) :
    EntryAgreesOn (recordEntryText fields room) (recordEntry fields) e := by
  intro p t ht
  unfold recordEntryText recordEntry
  cases hfield : fieldOf? fields e.1 with
  | none =>
    -- an unknown field is passed over as text, and dropped as a value
    obtain ⟨hle, hskip⟩ := leaves_eq_some_iff.mp (leaves_skipValue_print he ht)
    show outcome (skipValue (e.2.print ++ t) >>= fun q => .ok (p, ⟨q.1, _⟩)) = _
    rw [hskip]
    rfl
  | some f =>
    dsimp only
    split
    · rfl
    · have hmem := List.mem_of_find?_eq_some hfield
      refine (outcome_within (afterColon (f.change.ofText room) _) (p.see f) (·.2.2)).trans ?_
      rw [outcome_afterColon, hfields f hmem t ht, toOption_map]
      cases f.change.ofValue e.2 <;> rfl

/-- Without fields that are left, the list must end. -/
theorem outcome_recordItemsText_surplus (first : Bool) (record : ρ) {s : List Char}
    (hs : ∀ r, skipBlank s ≠ ']' :: r) :
    outcome (recordItemsText room first [] record s) = none := by
  have hclose : ∀ rest, closeItems s ≠ .ok rest := by
    intro rest
    unfold closeItems
    split
    · rintro ⟨⟩
    · next r h => exact absurd h (hs r)
    · split <;> rintro ⟨⟩
    · rintro ⟨⟩
  rw [recordItemsText]
  cases h : closeItems s with
  | error e => rfl
  | ok rest => exact absurd h (hclose rest)

theorem outcome_recordItemsText_none (first : Bool) (record : ρ) (t : List Char) :
    outcome (recordItemsText room first fields record (']' :: t)) = some (record, t) := by
  cases fields with
  | nil => rfl
  | cons f fields => rfl

theorem outcome_recordItemsText_first {f : Field ρ} {v : Json} (hv : v.Finite) (record : ρ)
    (t : List Char) :
    outcome (recordItemsText room true (f :: fields) record (v.print ++ t)) =
      (outcome (f.change.ofText room (v.print ++ t))).bind fun p =>
        outcome (recordItemsText room false fields (p.1 record) p.2) := by
  obtain ⟨c, s, htext, hs, hstarts⟩ := hv.exists_skipBlank t
  rw [recordItemsText]
  split
  · next h => cases hs.symm.trans h
  · next h =>
    obtain ⟨rfl, rfl⟩ := List.cons.inj (hs.symm.trans h)
    rw [if_neg hstarts.ne_closing.1, if_pos rfl]
    conv => rhs; rw [htext]
    exact outcome_bind fun change r _ =>
      outcome_after (recordItemsText room false fields (change record) r) _

theorem outcome_recordItemsText_next {f : Field ρ} {v : Json} (hv : v.Finite) (record : ρ)
    (t : List Char) :
    outcome (recordItemsText room false (f :: fields) record (',' :: (v.print ++ t))) =
      (outcome (f.change.ofText room (v.print ++ t))).bind fun p =>
        outcome (recordItemsText room false fields (p.1 record) p.2) := by
  obtain ⟨c, s, -, hs, hstarts⟩ := hv.exists_skipBlank t
  rw [recordItemsText]
  split
  · next h => cases h
  · next c' r' h =>
    obtain ⟨rfl, rfl⟩ := List.cons.inj (show ',' :: _ = c' :: r' from h)
    rw [if_neg (by decide), if_neg (by decide), if_pos rfl]
    split
    · next h' => cases hs.symm.trans h'
    · next h' => exact absurd (List.cons.inj (hs.symm.trans h')).1 hstarts.ne_closing.1
    · conv => rhs; rw [← hv.skipBlank_print t]
      exact outcome_bind fun change r _ =>
        outcome_after (recordItemsText room false fields (change record) r) _

/-- Fields by position, after the first item. An item too many is an error on both sides: the value
has more items than there are fields, and the text goes on where it should end. -/
theorem outcome_recordItemsText_more {vs : List Json} (hvs : ∀ v ∈ vs, v.Finite)
    (hfields : ∀ v ∈ vs, FieldsAgreeOn fields room v) (count : Nat) (record : ρ) (t : List Char) :
    outcome (recordItemsText room false fields record (printMoreItems vs ++ ']' :: t)) =
      (recordItems count fields vs record).toOption.map (·, t) := by
  induction fields generalizing vs record with
  | nil =>
    cases vs with
    | nil => rfl
    | cons v vs =>
      have hother : ∀ r, skipBlank (printMoreItems (v :: vs) ++ ']' :: t) ≠ ']' :: r := by
        rintro r ⟨⟩
      exact outcome_recordItemsText_surplus false record hother
  | cons f fields ih =>
    cases vs with
    | nil => exact outcome_recordItemsText_none false record t
    | cons v vs =>
      obtain ⟨hv, hvs⟩ := List.forall_mem_cons.mp hvs
      have hf := hfields v List.mem_cons_self f List.mem_cons_self
      have hrest : ∀ w ∈ vs, FieldsAgreeOn fields room w := fun w hw g hg =>
        hfields w (List.mem_cons_of_mem _ hw) g (List.mem_cons_of_mem _ hg)
      rw [printMoreItems_cons_append, outcome_recordItemsText_next hv,
        hf _ (endsNumeral_moreItems vs t), recordItems, toOption_bind]
      cases (f.change.ofValue v).toOption with
      | none => rfl
      | some change => exact ih hvs hrest (change record)

theorem outcome_recordItemsText_printed {vs : List Json} (hvs : ∀ v ∈ vs, v.Finite)
    (hfields : ∀ v ∈ vs, FieldsAgreeOn fields room v) (count : Nat) (record : ρ) (t : List Char) :
    outcome (recordItemsText room true fields record (printItems vs ++ ']' :: t)) =
      (recordItems count fields vs record).toOption.map (·, t) := by
  cases vs with
  | nil => exact (outcome_recordItemsText_none true record t).trans (by cases fields <;> rfl)
  | cons v vs =>
    have hv := (List.forall_mem_cons.mp hvs).1
    have hmore := outcome_recordItemsText_more hvs hfields count record t
    rw [printItems_cons, List.append_assoc]
    cases fields with
    | nil =>
      have hother := hv.skipBlank_print_ne (c := ']') (fun h => h.ne_closing.1 rfl)
      exact outcome_recordItemsText_surplus true record (hother _)
    | cons f fields =>
      rw [printMoreItems_cons_append, outcome_recordItemsText_next hv] at hmore
      rw [outcome_recordItemsText_first hv, hmore]

theorem outcome_record_other (wanted : String) (start : ρ) {s : List Char}
    (hobject : ∀ r, skipBlank s ≠ '{' :: r) (hlist : ∀ r, skipBlank s ≠ '[' :: r) :
    outcome ((Reader.record wanted fields start).ofText room s) = none := by
  unfold Reader.record
  dsimp only
  split
  · next r h => exact absurd h (hobject r)
  · next r h => exact absurd h (hlist r)
  · rfl

/-- A record agrees on a value if its fields agree on the parts of the value. -/
theorem agreesOn_record (wanted : String) (start : ρ) {v : Json} (hv : v.Finite)
    (hfields : ∀ w ∈ v.parts, FieldsAgreeOn fields room w) :
    AgreesOn ((Reader.record wanted fields start).ofText (room + 1))
      (Reader.record wanted fields start).ofValue v := by
  intro t _
  cases v with
  | object es =>
    have hentry : ∀ e ∈ es, EntryAgreesOn (recordEntryText fields room) (recordEntry fields) e :=
      fun e he => entryAgreesOn_record (hv.entries e he) (hfields e.2 (List.mem_map_of_mem he))
    rw [print_object_append]
    refine (outcome_within (entries (recordEntryText fields room) _ _) Partly.record _).trans ?_
    rw [outcome_entries_printed hentry]
    show _ = ((es.foldlM (fun p e => recordEntry fields p e.1 e.2) _).map _).toOption.map (·, t)
    rw [toOption_map, Option.map_map, Option.map_map]
    rfl
  | array vs =>
    rw [print_array_append]
    refine (outcome_after (recordItemsText room true fields start _) _).trans ?_
    exact outcome_recordItemsText_printed hv.items hfields vs.length start t
  | _ =>
    exact outcome_record_other wanted start
      (hv.skipBlank_print_ne (fun h => by simpa using h.eq_object) t)
      (hv.skipBlank_print_ne (fun h => by simpa using h.eq_array) t)

theorem AgreesFrom.record (wanted : String) (hfields : ∀ f ∈ fields, f.change.AgreesFrom depth)
    (start : ρ) : (Reader.record wanted fields start).AgreesFrom (depth + 1) := by
  refine .of_entered fun room hroom v hv => agreesOn_record wanted start hv fun w hw f hf => ?_
  exact hfields f hf room hroom w (hv.parts w hw)

end Record

/-! ### Whole documents -/

theorem toOption_parse (r : Reader α) (text : String) :
    (r.parse text).toOption = (outcome (r.ofText nestingLimit text.toList)).bind fun p =>
      if skipBlank p.2 = [] then some p.1 else none := by
  rw [parse]
  cases r.ofText nestingLimit text.toList with
  | error e => rfl
  | ok p => exact apply_ite Except.toOption (skipBlank p.2.1 = []) (.ok p.1) _

/-- Parsing the text of a value gives what is read from the value, and fails if that fails or if
anything but blanks follows the value. -/
theorem toOption_parse_print {r : Reader α} {v : Json}
    (h : AgreesOn (r.ofText nestingLimit) r.ofValue v) {after : List Char}
    (hafter : EndsNumeral after) :
    (r.parse (String.ofList (v.print ++ after))).toOption =
      if skipBlank after = [] then (r.ofValue v).toOption else none := by
  rw [toOption_parse, String.toList_ofList, h after hafter]
  cases r.ofValue v with
  | error e => exact (ite_self none).symm
  | ok a => rfl

/-- A reader gives the same for a text as for its value, if there is room. -/
theorem AgreesFrom.toOption_parse_render {r : Reader α} {depth : Nat} (h : r.AgreesFrom depth)
    (hdepth : depth ≤ nestingLimit) {v : Json} (hv : v.Finite) :
    (r.parse v.render).toOption = (r.ofValue v).toOption := by
  have hparse := toOption_parse_print (h nestingLimit hdepth v hv) endsNumeral_nil
  rw [List.append_nil] at hparse
  exact hparse

/-- A text that starts with neither a brace nor a bracket is no record. -/
theorem toOption_parse_record_other {ρ : Type} (wanted : String) (fields : List (Field ρ))
    (start : ρ) {text : String} (hobject : ∀ r, skipBlank text.toList ≠ '{' :: r)
    (hlist : ∀ r, skipBlank text.toList ≠ '[' :: r) :
    ((Reader.record wanted fields start).parse text).toOption = none := by
  rw [toOption_parse, outcome_record_other wanted start hobject hlist]
  rfl

end Reader

end AccessPolicy.Json
