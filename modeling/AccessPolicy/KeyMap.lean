/-! Finite maps with string keys. The entries are a list in strictly increasing key order, which is
the order of code points, so two maps with the same entries are equal and a walk over a map visits
its keys in order. `upsert` is the only operation that adds an entry; the lemmas about `get?` and
`keys` say what it does. -/

namespace AccessPolicy

/-- The entries of a map in strictly increasing key order. -/
structure KeyMap (α : Type) where
  toList : List (String × α)
  sorted : toList.Pairwise (fun a b => a.1 < b.1)

namespace KeyMap

variable {α β : Type}

@[ext] theorem ext {m n : KeyMap α} (h : m.toList = n.toList) : m = n := by
  cases m; cases n; cases h; rfl

instance [DecidableEq α] : DecidableEq (KeyMap α) := fun m n =>
  if h : m.toList = n.toList then isTrue (ext h) else isFalse fun e => h (e ▸ rfl)

/-- The map without entries. -/
def empty : KeyMap α := ⟨[], .nil⟩

instance : Inhabited (KeyMap α) := ⟨empty⟩

/-- The map has no entry. -/
def isEmpty (m : KeyMap α) : Bool := m.toList.isEmpty

/-- How many keys the map has. -/
def size (m : KeyMap α) : Nat := m.toList.length

/-- The keys in increasing order. -/
def keys (m : KeyMap α) : List String := m.toList.map (·.1)

/-- The value stored under `key`. -/
def get? (m : KeyMap α) (key : String) : Option α := m.toList.lookup key

/-- Whether there is a value under a key. -/
def contains (m : KeyMap α) (key : String) : Bool := (m.get? key).isSome

/-- `upsert` on a list of entries. -/
def upsertEntries (key : String) (f : Option α → α) : List (String × α) → List (String × α)
  | [] => [(key, f none)]
  | (k, v) :: rest =>
    if key < k then (key, f none) :: (k, v) :: rest
    else if key = k then (key, f (some v)) :: rest
    else (k, v) :: upsertEntries key f rest

theorem lt_of_not_lt_of_ne {a b : String} (h : ¬a < b) (hne : a ≠ b) : b < a :=
  String.not_le.mp fun hab => hne (String.le_antisymm hab (String.not_lt.mp h))

theorem forall_mem_upsertEntries {key : String} {f : Option α → α} {P : String → Prop}
    {l : List (String × α)} (hkey : P key) (hl : ∀ e ∈ l, P e.1) :
    ∀ e ∈ upsertEntries key f l, P e.1 := by
  induction l with
  | nil => simpa [upsertEntries] using hkey
  | cons e rest ih =>
    obtain ⟨k, v⟩ := e
    have hk : P k := hl (k, v) (by simp)
    have hrest : ∀ e ∈ rest, P e.1 := fun e he => hl e (by simp [he])
    unfold upsertEntries
    split
    · intro e he
      rcases List.mem_cons.mp he with rfl | he
      · exact hkey
      · exact hl e he
    · split
      · intro e he
        rcases List.mem_cons.mp he with rfl | he
        · exact hkey
        · exact hrest e he
      · intro e he
        rcases List.mem_cons.mp he with rfl | he
        · exact hk
        · exact ih hrest e he

theorem sorted_upsertEntries (key : String) (f : Option α → α) {l : List (String × α)}
    (h : l.Pairwise (fun a b => a.1 < b.1)) :
    (upsertEntries key f l).Pairwise (fun a b => a.1 < b.1) := by
  induction l with
  | nil => simp [upsertEntries]
  | cons e rest ih =>
    obtain ⟨k, v⟩ := e
    obtain ⟨hk, hrest⟩ := List.pairwise_cons.mp h
    unfold upsertEntries
    split
    next hlt =>
      refine List.pairwise_cons.mpr ⟨fun e he => ?_, h⟩
      rcases List.mem_cons.mp he with rfl | he
      · exact hlt
      · exact String.lt_trans hlt (hk e he)
    next hlt =>
      split
      next heq => exact List.pairwise_cons.mpr ⟨fun e he => heq ▸ hk e he, hrest⟩
      next hne =>
        exact List.pairwise_cons.mpr
          ⟨forall_mem_upsertEntries (P := (k < ·)) (lt_of_not_lt_of_ne hlt hne) hk, ih hrest⟩

/-- Stores `f old` under `key`, where `old` is the value there before, if any. -/
def upsert (m : KeyMap α) (key : String) (f : Option α → α) : KeyMap α :=
  ⟨upsertEntries key f m.toList, sorted_upsertEntries key f m.sorted⟩

/-- Stores `value` under `key`, in place of any value there before. -/
def insert (m : KeyMap α) (key : String) (value : α) : KeyMap α := m.upsert key fun _ => value

/-- The map of a list of entries; of entries with the same key the last one counts. -/
def ofList (l : List (String × α)) : KeyMap α := l.foldl (fun m e => m.insert e.1 e.2) empty

/-- Every value changed by a function, under the same keys. -/
def map (f : α → β) (m : KeyMap α) : KeyMap β :=
  ⟨m.toList.map fun e => (e.1, f e.2), List.pairwise_map.mpr m.sorted⟩

/-! ### What the operations do to the entries -/

@[simp] theorem get?_empty (key : String) : (empty : KeyMap α).get? key = none := rfl

theorem lookup_eq_none_of_forall_lt {key : String} {l : List (String × α)}
    (h : ∀ e ∈ l, key < e.1) : l.lookup key = none :=
  List.lookup_eq_none_iff.mpr fun e he => by
    rw [bne_iff_ne]
    rintro rfl
    exact String.lt_irrefl _ (h e he)

theorem lookup_upsertEntries (key : String) (f : Option α → α) {l : List (String × α)}
    (h : l.Pairwise (fun a b => a.1 < b.1)) (k : String) :
    (upsertEntries key f l).lookup k =
      if k = key then some (f (l.lookup key)) else l.lookup k := by
  induction l with
  | nil =>
    by_cases hk : k = key
    · simp [upsertEntries, hk]
    · simp [upsertEntries, List.lookup_cons, hk, beq_eq_false_iff_ne.mpr hk]
  | cons e rest ih =>
    obtain ⟨k', v⟩ := e
    obtain ⟨hk', hrest⟩ := List.pairwise_cons.mp h
    have hnone : ∀ {x}, x < k' → rest.lookup x = none := fun hx =>
      lookup_eq_none_of_forall_lt fun e he => String.lt_trans hx (hk' e he)
    unfold upsertEntries
    split
    next hlt =>
      have hne : key ≠ k' := fun e => String.lt_irrefl _ (e ▸ hlt)
      by_cases hk : k = key
      · subst hk
        simp [List.lookup_cons, beq_eq_false_iff_ne.mpr hne, hnone hlt]
      · simp [List.lookup_cons, hk, beq_eq_false_iff_ne.mpr hk]
    next hlt =>
      split
      next heq =>
        subst heq
        by_cases hk : k = key
        · subst hk; simp
        · simp [List.lookup_cons, hk, beq_eq_false_iff_ne.mpr hk]
      next hne =>
        by_cases hk : k = key
        · subst hk
          simp [List.lookup_cons, beq_eq_false_iff_ne.mpr hne, ih hrest]
        · by_cases hkk : k = k'
          · subst hkk; simp [hk]
          · simp [List.lookup_cons, beq_eq_false_iff_ne.mpr hkk, ih hrest, hk]

theorem get?_upsert (m : KeyMap α) (key : String) (f : Option α → α) (k : String) :
    (m.upsert key f).get? k = if k = key then some (f (m.get? key)) else m.get? k :=
  lookup_upsertEntries key f m.sorted k

theorem get?_insert (m : KeyMap α) (key : String) (value : α) (k : String) :
    (m.insert key value).get? k = if k = key then some value else m.get? k :=
  get?_upsert m key _ k

end KeyMap

end AccessPolicy
