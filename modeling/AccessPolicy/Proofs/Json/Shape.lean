import AccessPolicy.Json.Reader
import AccessPolicy.Proofs.Except
import AccessPolicy.Proofs.KeyMap
import Mathlib.Data.List.Forall2
import Mathlib.Data.List.Induction

/-! The shapes of JSON values that readers accept. A shape is a relation between values and what
they stand for. Readers are made from the readers of their parts, and each accepts the shape that is
made from the shapes of the parts in the same way: it reads `a` from a value exactly if the value
stands for `a`. A record is the hard case, since its fields are read in the order of the document:
the order does not matter because different fields change different parts of the record. -/

namespace AccessPolicy

namespace Json

variable {α β ρ : Type}

/-! ### Shapes -/

/-- A relation between JSON values and what they stand for. -/
abbrev Shape (α : Type) : Type := Json → α → Prop

/-- The last value that is stored under a key. Where the keys are distinct it is the only one. -/
def lastUnder (es : List (String × Json)) (key : String) : Option Json := es.reverse.lookup key

/-- The values that are stored under any of some names. -/
def valuesUnder (es : List (String × Json)) (names : List String) : List Json :=
  (es.filter fun e => names.contains e.1).map (·.2)

namespace Shape

/-- Strings stand for themselves. -/
def string : Shape String := fun v s => v = .string s

/-- Any value stands for itself. -/
def any : Shape Json := fun v w => v = w

/-- An array stands for what its items stand for, in turn. -/
def list (item : Shape α) : Shape (List α) := fun v as =>
  ∃ vs, v = .array vs ∧ List.Forall₂ item vs as

/-- An object, all of whose values have a shape, stands for the map from its keys to what the values
under them stand for. -/
def keyMap (value : Shape α) : Shape (KeyMap α) := fun v m =>
  ∃ es, v = .object es ∧ (∀ e ∈ es, ∃ a, value e.2 a) ∧
    ∀ key, Option.Rel value (lastUnder es key) (m.get? key)

/-- What may be left out: without a value, it is `absent`. -/
def orAbsent (value : Shape α) (absent : α) : Option Json → α → Prop
  | none, a => a = absent
  | some v, a => value v a

end Shape

/-- The values that a document gives for some fields, each field listed with its spellings: an
object gives them by name and none of them twice, and an array by position and no more than there
are fields. Other names do not matter. -/
def given? (fields : List (List String)) : Json → Option (List (Option Json))
  | .object es =>
    if ∀ spellings ∈ fields, (valuesUnder es spellings).length ≤ 1 then
      some (fields.map fun spellings => (valuesUnder es spellings).head?)
    else none
  | .array vs =>
    if vs.length ≤ fields.length then some ((List.range fields.length).map (vs[·]?)) else none
  | _ => none

theorem length_of_given? {fields : List (List String)} {v : Json} {given : List (Option Json)}
    (h : v.given? fields = some given) : given.length = fields.length := by
  unfold given? at h
  split at h
  · split at h
    · rw [← Option.some.inj h, List.length_map]
    · cases h
  · split at h
    · rw [← Option.some.inj h, List.length_map, List.length_range]
    · cases h
  · cases h

theorem lastUnder_concat (es : List (String × Json)) (e : String × Json) (key : String) :
    lastUnder (es ++ [e]) key = if key = e.1 then some e.2 else lastUnder es key := by
  rw [lastUnder, List.reverse_append, List.reverse_singleton, List.singleton_append,
    List.lookup_cons, ← lastUnder]
  by_cases hk : key = e.1
  · simp [hk]
  · simp [hk, beq_eq_false_iff_ne.mpr hk]

theorem lastUnder_eq_none_iff {es : List (String × Json)} {key : String} :
    lastUnder es key = none ↔ ∀ v, (key, v) ∉ es := by
  rw [lastUnder, List.lookup_eq_none_iff]
  simp only [List.mem_reverse, Prod.forall, bne_iff_ne]
  exact ⟨fun h v hmem => h key v hmem rfl, fun h k v hmem heq => h v (heq ▸ hmem)⟩

theorem mem_of_lastUnder {es : List (String × Json)} {key : String} {v : Json}
    (h : lastUnder es key = some v) : (key, v) ∈ es := by
  obtain ⟨before, after, heq, -⟩ := List.lookup_eq_some_iff.mp h
  rw [← List.mem_reverse, heq]
  exact List.mem_append_right _ List.mem_cons_self

/-- Where the entries are those of a map, each key has one value. -/
theorem lastUnder_toList (m : KeyMap Json) (key : String) :
    lastUnder m.toList key = m.get? key := by
  cases hlast : lastUnder m.toList key with
  | some v => exact (KeyMap.mem_toList_iff.mp (mem_of_lastUnder hlast)).symm
  | none =>
    cases hget : m.get? key with
    | none => rfl
    | some v =>
      exact absurd (KeyMap.mem_toList_iff.mpr hget) (lastUnder_eq_none_iff.mp hlast v)

theorem rel_any_iff {v? w? : Option Json} : Option.Rel Shape.any v? w? ↔ v? = w? := by
  constructor
  · rintro (⟨rfl⟩ | _) <;> rfl
  · rintro rfl
    cases v? with
    | none => exact .none
    | some v => exact .some rfl

theorem valuesUnder_cons (e : String × Json) (es : List (String × Json)) (names : List String) :
    valuesUnder (e :: es) names =
      if e.1 ∈ names then e.2 :: valuesUnder es names else valuesUnder es names := by
  rw [valuesUnder, List.filter_cons]
  by_cases h : e.1 ∈ names <;> simp [h, valuesUnder]

/-! ### What is written has a shape -/

namespace Shape

variable {write : α → Json}

theorem list_of_map {item : Shape α} (h : ∀ a, item (write a) a) (as : List α) :
    list item (.array (as.map write)) as :=
  ⟨as.map write, rfl, List.forall₂_map_left_iff.mpr (List.forall₂_same.mpr fun a _ => h a)⟩

theorem list_of_strings (ss : List String) : list string (.array (ss.map .string)) ss := by
  have hstring : ∀ s, string (.string s) s := fun _ => rfl
  exact list_of_map hstring ss

theorem keyMap_of_map {value : Shape α} (h : ∀ a, value (write a) a) (m : KeyMap α) :
    keyMap value (.ofMap (m.map write)) m := by
  refine ⟨(m.map write).toList, rfl, fun e he => ?_, fun key => ?_⟩
  · obtain ⟨e', -, rfl⟩ := List.mem_map.mp he
    exact ⟨e'.2, h e'.2⟩
  · rw [lastUnder_toList, KeyMap.get?_map]
    cases m.get? key with
    | none => exact .none
    | some a => exact .some (h a)

end Shape

namespace Reader

/-! ### Strings, lists and maps -/

/-- A reader reads from each value what it stands for, and nothing from other values. -/
def Accepts (r : Reader α) (shape : Shape α) : Prop := ∀ v a, r.ofValue v = .ok a ↔ shape v a

theorem Accepts.toOption_iff {r : Reader α} {shape : Shape α} (h : r.Accepts shape) {v : Json}
    {a : α} : (r.ofValue v).toOption = some a ↔ shape v a := by
  rw [toOption_eq_some_iff, h]

theorem Accepts.unique {r : Reader α} {shape : Shape α} (h : r.Accepts shape) {v : Json} {a b : α}
    (ha : shape v a) (hb : shape v b) : a = b := by
  have heq := ((h v a).mpr ha).symm.trans ((h v b).mpr hb)
  exact Except.ok.inj heq

theorem Accepts.string : Reader.string.Accepts Shape.string := by
  intro v s
  cases v <;> simp [Reader.string, Shape.string]

theorem Accepts.any : Reader.any.Accepts Shape.any := by
  intro v w
  simp [Reader.any, Shape.any]

theorem Accepts.map {r : Reader α} {shape : Shape α} (h : r.Accepts shape) (f : α → β) :
    (r.map f).Accepts fun v b => ∃ a, shape v a ∧ f a = b := by
  intro v b
  simp only [Reader.map, ← h v]
  cases r.ofValue v <;> simp [Except.map]

theorem mapM_ofValue_eq_ok_iff {item : Reader α} {shape : Shape α} (h : item.Accepts shape)
    {vs : List Json} {as : List α} :
    vs.mapM item.ofValue = .ok as ↔ List.Forall₂ shape vs as := by
  induction vs generalizing as with
  | nil => cases as <;> simp [pure, Except.pure]
  | cons v vs ih =>
    rw [List.mapM_cons, bind_eq_ok_iff, List.forall₂_cons_left_iff]
    constructor
    · rintro ⟨a, ha, has⟩
      obtain ⟨rest, hrest, heq⟩ := bind_eq_ok_iff.mp has
      obtain rfl : a :: rest = as := Except.ok.inj heq
      exact ⟨a, rest, (h v a).mp ha, ih.mp hrest, rfl⟩
    · rintro ⟨a, rest, ha, hrest, rfl⟩
      exact ⟨a, (h v a).mpr ha, bind_eq_ok_iff.mpr ⟨rest, ih.mpr hrest, rfl⟩⟩

/-- If items are read by their shape, so are lists of them. -/
theorem Accepts.list {item : Reader α} {shape : Shape α} (h : item.Accepts shape) :
    (Reader.list item).Accepts (Shape.list shape) := by
  intro v as
  cases v with
  | array vs =>
    show vs.mapM item.ofValue = .ok as ↔ _
    rw [mapM_ofValue_eq_ok_iff h]
    simp [Shape.list]
  | _ => simp [Reader.list, Shape.list]

/-- The map that is read from the entries of an object. -/
def mapOf (value : Reader α) (es : List (String × Json)) : Option (KeyMap α) :=
  es.foldlM (fun m e => (value.ofValue e.2).toOption.map fun a => m.insert e.1 a) .empty

theorem toOption_keyMap (value : Reader α) (es : List (String × Json)) :
    ((keyMap value).ofValue (.object es)).toOption = mapOf value es := by
  have hread : (keyMap value).ofValue (.object es) =
      es.foldlM (fun m e => do return m.insert e.1 (← value.ofValue e.2)) .empty := rfl
  rw [hread, toOption_foldlM, mapOf]
  congr 1
  funext m e
  rw [toOption_bind]
  cases (value.ofValue e.2).toOption <;> rfl

theorem mapOf_concat (value : Reader α) (es : List (String × Json)) (e : String × Json) :
    mapOf value (es ++ [e]) = (mapOf value es).bind fun m =>
      (value.ofValue e.2).toOption.map fun a => m.insert e.1 a := by
  rw [mapOf, List.foldlM_append]
  show (mapOf value es).bind _ = _
  congr 1
  funext m
  simp

theorem isSome_mapOf_iff {value : Reader α} {shape : Shape α} (h : value.Accepts shape)
    (es : List (String × Json)) : (∃ m, mapOf value es = some m) ↔ ∀ e ∈ es, ∃ a, shape e.2 a := by
  induction es using List.reverseRecOn with
  | nil => exact ⟨fun _ e he => absurd he List.not_mem_nil, fun _ => ⟨.empty, rfl⟩⟩
  | append_singleton es e ih =>
    rw [mapOf_concat, List.forall_mem_append, ← ih, List.forall_mem_singleton]
    constructor
    · rintro ⟨m, hm⟩
      obtain ⟨m', hm', hmap⟩ := Option.bind_eq_some_iff.mp hm
      obtain ⟨a, ha, -⟩ := Option.map_eq_some_iff.mp hmap
      exact ⟨⟨m', hm'⟩, a, h.toOption_iff.mp ha⟩
    · rintro ⟨⟨m, hm⟩, a, ha⟩
      exact ⟨m.insert e.1 a, by rw [hm, h.toOption_iff.mpr ha]; rfl⟩

/-- A map has under each key what was last under it. -/
theorem rel_of_mapOf {value : Reader α} {shape : Shape α} (h : value.Accepts shape)
    {es : List (String × Json)} {m : KeyMap α} (hm : mapOf value es = some m) (key : String) :
    Option.Rel shape (lastUnder es key) (m.get? key) := by
  induction es using List.reverseRecOn generalizing m with
  | nil =>
    obtain rfl : KeyMap.empty = m := Option.some.inj hm
    exact .none
  | append_singleton es e ih =>
    rw [mapOf_concat] at hm
    obtain ⟨m', hm', hmap⟩ := Option.bind_eq_some_iff.mp hm
    obtain ⟨a, ha, rfl⟩ := Option.map_eq_some_iff.mp hmap
    rw [lastUnder_concat, KeyMap.get?_insert]
    by_cases hk : key = e.1
    · rw [if_pos hk, if_pos hk]
      exact .some (h.toOption_iff.mp ha)
    · rw [if_neg hk, if_neg hk]
      exact ih hm'

theorem get?_eq_of_rel {value : Reader α} {shape : Shape α} (h : value.Accepts shape)
    {v? : Option Json} {a? b? : Option α} (ha : Option.Rel shape v? a?)
    (hb : Option.Rel shape v? b?) : a? = b? := by
  cases ha with
  | none => cases hb; rfl
  | some ha =>
    cases hb with
    | some hb => rw [h.unique ha hb]

theorem Accepts.keyMap {value : Reader α} {shape : Shape α} (h : value.Accepts shape) :
    (Reader.keyMap value).Accepts (Shape.keyMap shape) := by
  intro v m
  cases v with
  | object es =>
    rw [← toOption_eq_some_iff, toOption_keyMap]
    constructor
    · intro hm
      exact ⟨es, rfl, (isSome_mapOf_iff h es).mp ⟨m, hm⟩, rel_of_mapOf h hm⟩
    · rintro ⟨_, ⟨rfl⟩, hes, hrel⟩
      obtain ⟨m', hm'⟩ := (isSome_mapOf_iff h es).mpr hes
      have heq : m' = m :=
        KeyMap.ext_get? fun key => get?_eq_of_rel h (rel_of_mapOf h hm' key) (hrel key)
      rw [hm', heq]
  | _ => simp [Reader.keyMap, Shape.keyMap]

/-! ### Records -/

/-- The names under which a field is looked for. -/
def Field.spellings (f : Field ρ) : List String := f.name :: f.aliases

theorem mem_spellings_iff {f : Field ρ} {key : String} :
    key ∈ f.spellings ↔ (f.name == key || f.aliases.contains key) = true := by
  rw [Field.spellings, List.mem_cons, eq_comm]
  simp

/-- Two fields of which no name is a name of the other, and which change different parts of a
record. -/
structure Separate (f g : Field ρ) : Prop where
  disjoint : ∀ name ∈ f.spellings, name ∉ g.spellings
  commute : ∀ v w change change', f.change.ofValue v = .ok change →
    g.change.ofValue w = .ok change' → ∀ record, change (change' record) = change' (change record)

theorem Separate.symm {f g : Field ρ} (h : Separate f g) : Separate g f where
  disjoint name hg hf := h.disjoint name hf hg
  commute v w change change' hv hw record := (h.commute w v change' change hw hv record).symm

/-- The record in which the fields that are given, in their own order, have been set. -/
def fill : List (Field ρ) → List (Option Json) → ρ → Option ρ
  | f :: fields, some v :: given, record =>
    (f.change.ofValue v).toOption.bind fun change => fill fields given (change record)
  | _ :: fields, none :: given, record => fill fields given record
  | _, _, record => some record

theorem fill_append {fields fields' : List (Field ρ)} {given given' : List (Option Json)}
    (hlen : fields.length = given.length) (record : ρ) :
    fill (fields ++ fields') (given ++ given') record =
      (fill fields given record).bind (fill fields' given') := by
  induction fields generalizing given record with
  | nil =>
    obtain rfl := List.length_eq_zero_iff.mp hlen.symm
    rfl
  | cons f fields ih =>
    cases given with
    | nil => cases hlen
    | cons v? given =>
      have hlen' : fields.length = given.length := Nat.succ.inj hlen
      cases v? with
      | none => exact ih hlen' record
      | some v =>
        simp only [List.cons_append, fill]
        cases (f.change.ofValue v).toOption with
        | none => rfl
        | some change => exact ih hlen' (change record)

/-- A change that commutes with those of the fields may be made before them or after. -/
theorem fill_commute {f : Field ρ} {v : Json} {change : ρ → ρ}
    (hv : f.change.ofValue v = .ok change) {fields : List (Field ρ)}
    (hsep : ∀ g ∈ fields, Separate g f) (given : List (Option Json)) (record : ρ) :
    fill fields given (change record) = (fill fields given record).map change := by
  induction fields generalizing given record with
  | nil => rfl
  | cons g fields ih =>
    have hrest := ih fun g' hg' => hsep g' (List.mem_cons_of_mem _ hg')
    match given with
    | [] => rfl
    | none :: given => exact hrest given record
    | some w :: given =>
      simp only [fill]
      cases hw : g.change.ofValue w with
      | error e => rfl
      | ok change' =>
        show fill fields given (change' (change record)) =
          (fill fields given (change' record)).map change
        rw [(hsep g List.mem_cons_self).commute w v change' change hw hv]
        exact hrest given (change' record)

theorem fill_none (fields : List (Field ρ)) (record : ρ) :
    fill fields (fields.map fun _ => none) record = some record := by
  induction fields with
  | nil => rfl
  | cons f fields ih => exact ih

section Split

variable {before after : List (Field ρ)} {f : Field ρ} {v : Json}

/-- A field that is given may be set first, as if it were not given afterwards. -/
theorem fill_eq_of_given (hsep : (before ++ f :: after).Pairwise Separate) {change : ρ → ρ}
    (hv : f.change.ofValue v = .ok change) {given given' : Field ρ → Option Json}
    (hf : given f = some v) (hf' : given' f = none)
    (hothers : ∀ g ∈ before ++ after, given g = given' g) (record : ρ) :
    fill (before ++ f :: after) ((before ++ f :: after).map given) record =
      fill (before ++ f :: after) ((before ++ f :: after).map given') (change record) := by
  have hbefore : before.map given = before.map given' :=
    List.map_congr_left fun g hg => hothers g (List.mem_append_left _ hg)
  have hafter : after.map given = after.map given' :=
    List.map_congr_left fun g hg => hothers g (List.mem_append_right _ hg)
  have hseparate : ∀ g ∈ before, Separate g f := fun g hg =>
    (List.pairwise_append.mp hsep).2.2 g hg f List.mem_cons_self
  rw [List.map_append, List.map_append, List.map_cons, List.map_cons, hf, hf', hbefore, hafter,
    fill_append (List.length_map _).symm, fill_append (List.length_map _).symm,
    fill_commute hv hseparate]
  cases fill before (before.map given') record with
  | none => rfl
  | some record =>
    simp only [Option.bind_some, Option.map_some, fill, hv]
    rfl

theorem fill_eq_none_of_given {e : ReadError} (hv : f.change.ofValue v = .error e)
    {given : Field ρ → Option Json} (hf : given f = some v) (record : ρ) :
    fill (before ++ f :: after) ((before ++ f :: after).map given) record = none := by
  rw [List.map_append, List.map_cons, hf, fill_append (List.length_map _).symm]
  cases fill before (before.map given) record with
  | none => rfl
  | some record =>
    simp only [Option.bind_some, fill, hv]
    rfl

end Split

/-- No field occurs twice among the entries, and none that has been seen occurs at all. -/
def AtMostOnce (fields : List (Field ρ)) (seen : List String) (es : List (String × Json)) : Prop :=
  ∀ f ∈ fields, (valuesUnder es f.spellings).length ≤ 1 ∧
    (f.name ∈ seen → (valuesUnder es f.spellings).length = 0)

instance (fields : List (Field ρ)) (seen : List String) (es : List (String × Json)) :
    Decidable (AtMostOnce fields seen es) :=
  inferInstanceAs (Decidable (∀ f ∈ fields, _))

/-- The record that entries make of another one, some fields of which have been seen. -/
def recordOf (fields : List (Field ρ)) (seen : List String) (es : List (String × Json))
    (record : ρ) : Option ρ :=
  if AtMostOnce fields seen es then
    fill fields (fields.map fun f => (valuesUnder es f.spellings).head?) record
  else none

section RecordOf

variable {fields : List (Field ρ)} {seen : List String} {e : String × Json}

theorem recordOf_nil (fields : List (Field ρ)) (seen : List String) (record : ρ) :
    recordOf fields seen [] record = some record := by
  have honce : AtMostOnce fields seen [] := fun f _ => ⟨Nat.zero_le _, fun _ => rfl⟩
  rw [recordOf, if_pos honce]
  exact fill_none fields record

theorem recordOf_of_unknown (hnot : ∀ f ∈ fields, e.1 ∉ f.spellings) (es : List (String × Json))
    (record : ρ) : recordOf fields seen (e :: es) record = recordOf fields seen es record := by
  have hsame : ∀ f ∈ fields, valuesUnder (e :: es) f.spellings = valuesUnder es f.spellings :=
    fun f hf => by rw [valuesUnder_cons, if_neg (hnot f hf)]
  have honce : AtMostOnce fields seen (e :: es) ↔ AtMostOnce fields seen es :=
    forall₂_congr fun f hf => by rw [hsame f hf]
  have hgiven : (fields.map fun f => (valuesUnder (e :: es) f.spellings).head?) =
      fields.map fun f => (valuesUnder es f.spellings).head? :=
    List.map_congr_left fun f hf => by rw [hsame f hf]
  rw [recordOf, recordOf, hgiven]
  exact if_congr honce rfl rfl

theorem recordOf_of_seen {f : Field ρ} (hf : f ∈ fields) (hname : e.1 ∈ f.spellings)
    (hseen : f.name ∈ seen) (es : List (String × Json)) (record : ρ) :
    recordOf fields seen (e :: es) record = none := by
  apply if_neg
  intro honce
  have hlength := (honce f hf).2 hseen
  rw [valuesUnder_cons, if_pos hname] at hlength
  cases hlength

variable {before after : List (Field ρ)} {f : Field ρ}

theorem atMostOnce_cons_iff (hname : e.1 ∈ f.spellings) (hseen : f.name ∉ seen)
    (hothers : ∀ g ∈ before ++ after, e.1 ∉ g.spellings ∧ g.name ≠ f.name)
    (es : List (String × Json)) :
    AtMostOnce (before ++ f :: after) seen (e :: es) ↔
      AtMostOnce (before ++ f :: after) (f.name :: seen) es := by
  have hfield : valuesUnder (e :: es) f.spellings = e.2 :: valuesUnder es f.spellings := by
    rw [valuesUnder_cons, if_pos hname]
  have hsame : ∀ g ∈ before ++ after,
      (((valuesUnder (e :: es) g.spellings).length ≤ 1 ∧
          (g.name ∈ seen → (valuesUnder (e :: es) g.spellings).length = 0)) ↔
        ((valuesUnder es g.spellings).length ≤ 1 ∧
          (g.name ∈ f.name :: seen → (valuesUnder es g.spellings).length = 0))) := by
    intro g hg
    obtain ⟨hnot, hne⟩ := hothers g hg
    rw [valuesUnder_cons, if_neg hnot, List.mem_cons, or_iff_right hne]
  unfold AtMostOnce
  rw [List.forall_mem_append, List.forall_mem_append, List.forall_mem_cons, List.forall_mem_cons]
  refine and_congr ?_ (and_congr ?_ ?_)
  · exact forall₂_congr fun g hg => hsame g (List.mem_append_left _ hg)
  · rw [hfield, List.length_cons]
    simp only [hseen, false_implies, and_true, List.mem_cons_self, true_implies]
    omega
  · exact forall₂_congr fun g hg => hsame g (List.mem_append_right _ hg)

/-- The first entry of a field sets it, and it must not occur again. -/
theorem recordOf_of_field (hsep : (before ++ f :: after).Pairwise Separate)
    (hname : e.1 ∈ f.spellings) (hseen : f.name ∉ seen) (es : List (String × Json)) (record : ρ) :
    recordOf (before ++ f :: after) seen (e :: es) record =
      (f.change.ofValue e.2).toOption.bind fun change =>
        recordOf (before ++ f :: after) (f.name :: seen) es (change record) := by
  have hothers : ∀ g ∈ before ++ after, e.1 ∉ g.spellings ∧ g.name ≠ f.name := by
    obtain ⟨-, hcons, hcross⟩ := List.pairwise_append.mp hsep
    intro g hg
    have hseparate : Separate f g := by
      rcases List.mem_append.mp hg with hg | hg
      · exact (hcross g hg f List.mem_cons_self).symm
      · exact (List.pairwise_cons.mp hcons).1 g hg
    refine ⟨hseparate.disjoint _ hname, fun heq => ?_⟩
    exact hseparate.disjoint f.name List.mem_cons_self (heq ▸ List.mem_cons_self)
  have hgiven : (valuesUnder (e :: es) f.spellings).head? = some e.2 := by
    rw [valuesUnder_cons, if_pos hname, List.head?_cons]
  unfold recordOf
  rw [if_congr (atMostOnce_cons_iff hname hseen hothers es) rfl rfl]
  cases hv : f.change.ofValue e.2 with
  | error error =>
    rw [fill_eq_none_of_given hv hgiven, ite_self]
    rfl
  | ok change =>
    show _ = ite _ _ _
    refine ite_congr rfl (fun honce => ?_) fun _ => rfl
    have hnone : (valuesUnder es f.spellings).head? = none := by
      rw [List.length_eq_zero_iff.mp ((honce f (by simp)).2 List.mem_cons_self), List.head?_nil]
    refine fill_eq_of_given hsep hv hgiven hnone (fun g hg => ?_) record
    rw [valuesUnder_cons, if_neg (hothers g hg).1]

end RecordOf

/-- Reading the entries of an object sets the fields that they give, whatever their order, and fails
where one occurs twice. -/
theorem toOption_foldlM_recordEntry {fields : List (Field ρ)} (hsep : fields.Pairwise Separate)
    (es : List (String × Json)) (p : Partly ρ) :
    (es.foldlM (fun p e => recordEntry fields p e.1 e.2) p).toOption.map Partly.record =
      recordOf fields p.seen es p.record := by
  induction es generalizing p with
  | nil => exact (recordOf_nil fields p.seen p.record).symm
  | cons e es ih =>
    rw [List.foldlM_cons, toOption_bind]
    cases hfield : fieldOf? fields e.1 with
    | none =>
      have hnot : ∀ f ∈ fields, e.1 ∉ f.spellings := by
        intro f hf hname
        exact List.find?_eq_none.mp hfield f hf (mem_spellings_iff.mp hname)
      have hentry : recordEntry fields p e.1 e.2 = .ok p := by rw [recordEntry, hfield]
      rw [hentry, recordOf_of_unknown hnot]
      exact ih p
    | some f =>
      have hname : e.1 ∈ f.spellings := by
        have htest := List.find?_some (show fields.find? _ = some f from hfield)
        exact mem_spellings_iff.mpr htest
      by_cases hseen : f.name ∈ p.seen
      · have hentry : recordEntry fields p e.1 e.2 = .error (.duplicateField f.name) := by
          simp only [recordEntry, hfield, if_pos hseen]
        rw [hentry, recordOf_of_seen (List.mem_of_find?_eq_some hfield) hname hseen]
        rfl
      · have hentry : recordEntry fields p e.1 e.2 = (f.change.ofValue e.2).map (p.see f) := by
          simp only [recordEntry, hfield, if_neg hseen]
        obtain ⟨-, before, after, rfl, -⟩ := List.find?_eq_some_iff_append.mp hfield
        rw [hentry, recordOf_of_field hsep hname hseen, toOption_map]
        cases (f.change.ofValue e.2).toOption with
        | none => rfl
        | some change => exact ih (p.see f change)

theorem toOption_recordItems (count : Nat) (fields : List (Field ρ)) (vs : List Json) (record : ρ) :
    (recordItems count fields vs record).toOption =
      if vs.length ≤ fields.length then
        fill fields ((List.range fields.length).map (vs[·]?)) record
      else none := by
  induction fields generalizing vs record with
  | nil => cases vs <;> rfl
  | cons f fields ih =>
    rw [List.length_cons, List.range_succ_eq_map, List.map_cons, List.map_map]
    cases vs with
    | nil =>
      have hnone : (List.range fields.length).map ((([] : List Json)[·]?) ∘ Nat.succ) =
          fields.map fun _ => none := by
        rw [List.map_const', List.eq_replicate_iff]
        simp
      rw [hnone]
      exact (fill_none (f :: fields) record).symm
    | cons v vs =>
      have hrest : (List.range fields.length).map (((v :: vs)[·]?) ∘ Nat.succ) =
          (List.range fields.length).map (vs[·]?) := rfl
      rw [recordItems, toOption_bind, hrest, List.getElem?_cons_zero, List.length_cons]
      simp only [Nat.add_le_add_iff_right, fill, ih]
      cases (f.change.ofValue v).toOption <;> simp

/-- A record is read from what the document gives for its fields. -/
theorem toOption_record (wanted : String) {fields : List (Field ρ)}
    (hsep : fields.Pairwise Separate) (start : ρ) (v : Json) :
    ((record wanted fields start).ofValue v).toOption =
      (v.given? (fields.map Field.spellings)).bind fun given => fill fields given start := by
  cases v with
  | object es =>
    have hread : (record wanted fields start).ofValue (.object es) =
        (es.foldlM (fun p e => recordEntry fields p e.1 e.2) ⟨start, []⟩).map Partly.record := rfl
    have honce : AtMostOnce fields [] es ↔ ∀ spellings ∈ fields.map Field.spellings,
        (valuesUnder es spellings).length ≤ 1 := by
      simp [AtMostOnce]
    rw [hread, toOption_map, toOption_foldlM_recordEntry hsep, recordOf, given?,
      if_congr honce rfl rfl, List.map_map]
    split <;> rfl
  | array vs =>
    show (recordItems vs.length fields vs start).toOption = _
    rw [toOption_recordItems, given?, List.length_map]
    split <;> rfl
  | _ => rfl

/-- A record is read from a value that gives its fields, each by its own reader. -/
theorem record_eq_ok_iff {wanted : String} {fields : List (Field ρ)}
    (hsep : fields.Pairwise Separate) {start record : ρ} {v : Json} :
    (Reader.record wanted fields start).ofValue v = .ok record ↔
      ∃ given, v.given? (fields.map Field.spellings) = some given ∧
        fill fields given start = some record := by
  rw [← toOption_eq_some_iff, toOption_record wanted hsep, Option.bind_eq_some_iff]

/-! ### Fields of a record one by one -/

theorem separate_of {f g : Field ρ} {value : Reader α} {value' : Reader β} {set : α → ρ → ρ}
    {set' : β → ρ → ρ} (hf : f.change = value.map set) (hg : g.change = value'.map set')
    (hdisjoint : ∀ name ∈ f.spellings, name ∉ g.spellings)
    (hcommute : ∀ a b record, set a (set' b record) = set' b (set a record)) : Separate f g where
  disjoint := hdisjoint
  commute v w change change' hv hw record := by
    have haccepts : value.Accepts fun v a => value.ofValue v = .ok a := fun _ _ => Iff.rfl
    have haccepts' : value'.Accepts fun v b => value'.ofValue v = .ok b := fun _ _ => Iff.rfl
    rw [hf] at hv
    rw [hg] at hw
    obtain ⟨a, -, rfl⟩ := (haccepts.map set v change).mp hv
    obtain ⟨b, -, rfl⟩ := (haccepts'.map set' w change').mp hw
    exact hcommute a b record

/-- The first field of a record is as its value describes it, or as it is at the start. -/
theorem fill_cons_iff {f : Field ρ} {value : Reader α} {set : α → ρ → ρ} {shape : Shape α}
    (hf : f.change = value.map set) (haccepts : value.Accepts shape) {absent : α} {start : ρ}
    (habsent : set absent start = start) {fields : List (Field ρ)} {v? : Option Json}
    {given : List (Option Json)} {record : ρ} :
    fill (f :: fields) (v? :: given) start = some record ↔
      ∃ a, shape.orAbsent absent v? a ∧ fill fields given (set a start) = some record := by
  cases v? with
  | none => simp [fill, Shape.orAbsent, habsent]
  | some v =>
    simp only [fill, Shape.orAbsent, hf, Option.bind_eq_some_iff,
      (haccepts.map set).toOption_iff]
    constructor
    · rintro ⟨_, ⟨a, ha, rfl⟩, hrest⟩
      exact ⟨a, ha, hrest⟩
    · rintro ⟨a, ha, hrest⟩
      exact ⟨_, ⟨a, ha, rfl⟩, hrest⟩

end Reader

end Json

end AccessPolicy
