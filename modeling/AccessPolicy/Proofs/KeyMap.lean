import AccessPolicy.KeyMap
import Mathlib.Data.List.Sort

/-! Entries of a map and the values stored in it: a key has one entry, so an entry is in the list
exactly if looking up its key gives its value, and maps that answer every look-up alike are equal.
The keys are a strictly increasing list, so maps that store something under the same keys have the
same list of keys. -/

namespace AccessPolicy.KeyMap

variable {α β : Type}

theorem mem_iff_lookup {l : List (String × α)} (h : l.Pairwise (fun a b => a.1 < b.1))
    {key : String} {value : α} : (key, value) ∈ l ↔ l.lookup key = some value := by
  induction l with
  | nil => simp
  | cons e rest ih =>
    obtain ⟨k, v⟩ := e
    obtain ⟨hk, hrest⟩ := List.pairwise_cons.mp h
    rw [List.mem_cons, ih hrest, List.lookup_cons]
    by_cases heq : key = k
    · subst heq
      have hnone : rest.lookup key ≠ some value := fun hl =>
        String.lt_irrefl key (hk (key, value) ((ih hrest).mpr hl))
      simp [hnone, eq_comm]
    · simp [heq, beq_eq_false_iff_ne.mpr heq]

/-- The entries of a map are what is found under its keys. -/
theorem mem_toList_iff {m : KeyMap α} {key : String} {value : α} :
    (key, value) ∈ m.toList ↔ m.get? key = some value :=
  mem_iff_lookup m.sorted

theorem mem_keys_iff {m : KeyMap α} {key : String} :
    key ∈ m.keys ↔ ∃ value, m.get? key = some value := by
  rw [keys, List.mem_map]
  constructor
  · rintro ⟨⟨k, value⟩, he, rfl⟩
    exact ⟨value, mem_toList_iff.mp he⟩
  · rintro ⟨value, hv⟩
    exact ⟨(key, value), mem_toList_iff.mpr hv, rfl⟩

theorem pairwise_keys (m : KeyMap α) : m.keys.Pairwise (· < ·) := List.pairwise_map.mpr m.sorted

theorem nodup_keys (m : KeyMap α) : m.keys.Nodup := by
  refine m.pairwise_keys.imp fun hlt heq => ?_
  exact String.lt_irrefl _ (heq ▸ hlt)

theorem keys_eq_of_mem_iff {m : KeyMap α} {n : KeyMap β}
    (h : ∀ key, key ∈ m.keys ↔ key ∈ n.keys) : m.keys = n.keys :=
  m.pairwise_keys.eq_of_mem_iff n.pairwise_keys h

theorem nodup_toList (m : KeyMap α) : m.toList.Nodup := by
  refine m.sorted.imp fun hlt heq => ?_
  exact String.lt_irrefl _ (heq ▸ hlt)

/-- Maps with the same values under all keys are equal. -/
theorem ext_get? {m n : KeyMap α} (h : ∀ key, m.get? key = n.get? key) : m = n := by
  have hperm : m.toList.Perm n.toList := by
    rw [List.perm_ext_iff_of_nodup m.nodup_toList n.nodup_toList]
    rintro ⟨key, value⟩
    rw [mem_toList_iff, mem_toList_iff, h key]
  apply ext
  exact hperm.eq_of_pairwise (fun _ _ _ _ hlt hgt => absurd hlt (String.lt_asymm hgt))
    m.sorted n.sorted

theorem get?_map (f : α → β) (m : KeyMap α) (key : String) :
    (m.map f).get? key = (m.get? key).map f := by
  have hlookup : ∀ l : List (String × α),
      (l.map fun e => (e.1, f e.2)).lookup key = (l.lookup key).map f := by
    intro l
    induction l with
    | nil => rfl
    | cons e l ih =>
      rw [List.map_cons, List.lookup_cons, List.lookup_cons, ih]
      cases key == e.1 <;> rfl
  exact hlookup m.toList

theorem map_filter_key {l : List (String × α)} (h : l.Pairwise (fun a b => a.1 < b.1))
    (key : String) : (l.filter (·.1 = key)).map (·.2) = (l.lookup key).toList := by
  induction l with
  | nil => rfl
  | cons e rest ih =>
    obtain ⟨k, v⟩ := e
    obtain ⟨hk, hrest⟩ := List.pairwise_cons.mp h
    have ih := ih hrest
    rw [List.filter_cons, List.lookup_cons]
    by_cases heq : key = k
    · subst heq
      -- the key has no second entry
      rw [lookup_eq_none_of_forall_lt hk] at ih
      simp [List.map_eq_nil_iff.mp ih]
    · simp [Ne.symm heq, beq_eq_false_iff_ne.mpr heq, ih]

/-- Whatever the order in which the entries are listed, a key has its one value among them. -/
theorem map_filter_key_of_perm {m : KeyMap α} {entries : List (String × α)}
    (hp : entries.Perm m.toList) (key : String) :
    (entries.filter (·.1 = key)).map (·.2) = (m.get? key).toList := by
  have hvalues := (hp.filter (·.1 = key)).map (·.2)
  rw [map_filter_key m.sorted, ← get?] at hvalues
  cases hget : m.get? key with
  | none =>
    rw [hget] at hvalues
    exact hvalues.eq_nil
  | some value =>
    rw [hget] at hvalues
    exact hvalues.eq_singleton

theorem get?_foldl_insert (l : List (String × α)) (m : KeyMap α) (key : String) :
    (l.foldl (fun m e => m.insert e.1 e.2) m).get? key =
      ((l.filter (·.1 = key)).map (·.2)).getLast?.or (m.get? key) := by
  induction l generalizing m with
  | nil => rfl
  | cons e l ih =>
    rw [List.foldl_cons, ih, get?_insert, List.filter_cons]
    by_cases heq : key = e.1
    · subst heq
      rw [if_pos rfl, if_pos (decide_eq_true rfl), List.map_cons, List.getLast?_cons]
      cases ((l.filter (·.1 = e.1)).map (·.2)).getLast? <;> rfl
    · rw [if_neg heq, if_neg (by simp [Ne.symm heq])]

/-- Of entries with the same key the last one counts. -/
theorem get?_ofList (l : List (String × α)) (key : String) :
    (ofList l).get? key = ((l.filter (·.1 = key)).map (·.2)).getLast? := by
  rw [ofList, get?_foldl_insert, get?_empty, Option.or_none]

/-- The entries of a map make the map in any order. -/
theorem ofList_eq_of_perm {m : KeyMap α} {l : List (String × α)} (hp : l.Perm m.toList) :
    ofList l = m := by
  apply ext_get?
  intro key
  rw [get?_ofList, map_filter_key_of_perm hp]
  cases m.get? key <;> rfl

theorem perm_upsertEntries {key : String} {f : Option α → α} {l : List (String × α)}
    (h : key ∉ l.map (·.1)) : (upsertEntries key f l).Perm ((key, f none) :: l) := by
  induction l with
  | nil => exact .refl _
  | cons e rest ih =>
    obtain ⟨hne, hrest⟩ := not_or.mp (mt List.mem_cons.mpr h)
    unfold upsertEntries
    split
    · exact .refl _
    · exact ((ih hrest).cons e).trans (.swap _ _ _)

theorem perm_toList_foldl_insert {l : List (String × α)} {m : KeyMap α}
    (h : ((l ++ m.toList).map (·.1)).Nodup) :
    (l ++ m.toList).Perm (l.foldl (fun m e => m.insert e.1 e.2) m).toList := by
  induction l generalizing m with
  | nil => exact .refl _
  | cons e l ih =>
    have hnew : e.1 ∉ m.toList.map (·.1) := by
      rw [List.cons_append, List.map_cons, List.nodup_cons, List.map_append] at h
      exact fun hmem => h.1 (List.mem_append_right _ hmem)
    have hentries : (m.insert e.1 e.2).toList.Perm (e :: m.toList) := perm_upsertEntries hnew
    have hinsert : (e :: (l ++ m.toList)).Perm (l ++ (m.insert e.1 e.2).toList) :=
      List.perm_middle.symm.trans (hentries.symm.append_left l)
    exact hinsert.trans (ih ((hinsert.map (·.1)).nodup_iff.mp h))

/-- Entries whose keys are all different are those of the map that they make. -/
theorem perm_toList_ofList {l : List (String × α)} (h : (l.map (·.1)).Nodup) :
    l.Perm (ofList l).toList := by
  have hperm := perm_toList_foldl_insert (m := empty) (l := l)
  rw [show (empty : KeyMap α).toList = [] from rfl, List.append_nil] at hperm
  exact hperm h

/-! ### Leaving entries out -/

/-- The entries whose keys pass a test. -/
def filter (m : KeyMap α) (keep : String → Bool) : KeyMap α :=
  ⟨m.toList.filter fun e => keep e.1, m.sorted.filter _⟩

theorem keys_filter (m : KeyMap α) (keep : String → Bool) :
    (m.filter keep).keys = m.keys.filter keep := by
  rw [keys, keys, List.filter_map]
  rfl

theorem get?_filter (m : KeyMap α) (keep : String → Bool) (key : String) :
    (m.filter keep).get? key = if keep key then m.get? key else none := by
  ext value
  have hmem : (key, value) ∈ (m.filter keep).toList ↔
      (key, value) ∈ m.toList ∧ keep key = true := List.mem_filter
  rw [mem_toList_iff, mem_toList_iff] at hmem
  rw [hmem]
  cases keep key <;> simp

end AccessPolicy.KeyMap
