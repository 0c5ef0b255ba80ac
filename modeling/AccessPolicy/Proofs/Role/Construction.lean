import AccessPolicy.Proofs.KeyMap
import AccessPolicy.Proofs.Role.Cycle
import AccessPolicy.Proofs.Role.Insertion

/-! Hierarchies built from a list of parents with their children. A parent that is listed several
times gets the children of all its occurrences, in the order of the list, and one that is listed
without children is a parent all the same. The order of the list shows in the order of children
only: the edges are the same, and with them what a role implies and whether there is a cycle. Where
no parent is listed twice, as in the entries of a map, the order does not show at all. -/

namespace AccessPolicy.RoleHierarchy

variable {h h' : RoleHierarchy} {pairs pairs' : List (String × List String)}

/-! ### What a hierarchy consists of -/

theorem get?_edges (h : RoleHierarchy) (parent : String) :
    h.edges.get? parent = if parent ∈ h.parents then some (h.children parent) else none := by
  by_cases hp : parent ∈ h.parents
  · obtain ⟨children, hget⟩ := KeyMap.mem_keys_iff.mp hp
    rw [if_pos hp, RoleHierarchy.children, hget]
    rfl
  · rw [if_neg hp]
    cases hget : h.edges.get? parent with
    | none => rfl
    | some children => exact absurd (KeyMap.mem_keys_iff.mpr ⟨children, hget⟩) hp

/-- A hierarchy is its parents and their children. -/
theorem ext_children (hparents : ∀ parent, parent ∈ h.parents ↔ parent ∈ h'.parents)
    (hchildren : ∀ parent, h.children parent = h'.children parent) : h = h' := by
  have hedges : h.edges = h'.edges := by
    apply KeyMap.ext_get?
    intro parent
    simp only [get?_edges, hparents, hchildren]
  cases h
  cases h'
  cases hedges
  rfl

theorem mem_parents_insert_iff {parent role : String} {added : List String} :
    role ∈ (h.insert parent added).parents ↔ role ∈ h.parents ∨ role = parent := by
  rw [parents, parents, KeyMap.mem_keys_iff, KeyMap.mem_keys_iff, insert, KeyMap.get?_upsert]
  by_cases hr : role = parent <;> simp [hr]

/-! ### Inserting a list of pairs -/

/-- The lists of children that are given for a parent, in order. -/
def given (pairs : List (String × List String)) (parent : String) : List (List String) :=
  (pairs.filter (·.1 = parent)).map (·.2)

theorem given_cons (pair : String × List String) (rest : List (String × List String))
    (parent : String) :
    given (pair :: rest) parent =
      if parent = pair.1 then pair.2 :: given rest parent else given rest parent := by
  rw [given, List.filter_cons]
  by_cases hp : parent = pair.1
  · simp [hp, given]
  · simp [hp, Ne.symm hp, given]

/-- The hierarchy after the pairs have been inserted one by one. -/
def insertAll (h : RoleHierarchy) (pairs : List (String × List String)) : RoleHierarchy :=
  pairs.foldl (fun h pair => h.insert pair.1 pair.2) h

theorem mem_parents_insertAll_iff {parent : String} :
    parent ∈ (h.insertAll pairs).parents ↔ parent ∈ h.parents ∨ parent ∈ pairs.map (·.1) := by
  induction pairs generalizing h with
  | nil => simp [insertAll]
  | cons pair rest ih =>
    show parent ∈ ((h.insert pair.1 pair.2).insertAll rest).parents ↔ _
    rw [ih, mem_parents_insert_iff, List.map_cons, List.mem_cons, or_assoc]

theorem children_insertAll (h : RoleHierarchy) (pairs : List (String × List String))
    (parent : String) :
    (h.insertAll pairs).children parent = h.children parent ++ (given pairs parent).flatten := by
  induction pairs generalizing h with
  | nil => simp [insertAll, given]
  | cons pair rest ih =>
    show ((h.insert pair.1 pair.2).insertAll rest).children parent = _
    rw [ih, children_insert, given_cons]
    by_cases hp : parent = pair.1
    · subst hp
      rw [if_pos rfl, if_pos rfl, List.flatten_cons, List.append_assoc]
    · rw [if_neg hp, if_neg hp]

theorem mem_parents_ofList_iff {parent : String} :
    parent ∈ (ofList pairs).parents ↔ parent ∈ pairs.map (·.1) := by
  show parent ∈ (empty.insertAll pairs).parents ↔ _
  rw [mem_parents_insertAll_iff]
  simp [parents, empty, KeyMap.keys, KeyMap.empty]

/-- The children of a parent are those of all its pairs, in their order. -/
theorem children_ofList (pairs : List (String × List String)) (parent : String) :
    (ofList pairs).children parent = (given pairs parent).flatten :=
  children_insertAll empty pairs parent

theorem edge_ofList_iff {parent child : String} :
    (ofList pairs).Edge parent child ↔
      ∃ children, (parent, children) ∈ pairs ∧ child ∈ children := by
  rw [Edge, children_ofList, List.mem_flatten]
  simp [given]

/-- The entries of a map, in any order, give the hierarchy whose edges are that map. -/
theorem ofList_eq_of_perm_toList {m : KeyMap (List String)} {entries : List (String × List String)}
    (hp : entries.Perm m.toList) : ofList entries = ⟨m⟩ := by
  apply ext_children
  · intro parent
    rw [mem_parents_ofList_iff]
    exact (hp.map (·.1)).mem_iff
  · intro parent
    rw [children_ofList, given, KeyMap.map_filter_key_of_perm hp, children]
    cases m.get? parent <;> simp

/-! ### Hierarchies with the same edges -/

section Congr

variable (hedges : ∀ parent child, h.Edge parent child ↔ h'.Edge parent child)

include hedges

theorem reaches_congr : h.Reaches = h'.Reaches := by
  have heq : h.Edge = h'.Edge := funext fun parent => funext fun child =>
    propext (hedges parent child)
  rw [Reaches, Reaches, heq]

theorem implies_congr (role target : String) : h.implies role target = h'.implies role target := by
  rw [Bool.eq_iff_iff, implies_iff_reaches, implies_iff_reaches, reaches_congr hedges]

theorem findCycle?_eq_none_congr : h.findCycle? = none ↔ h'.findCycle? = none := by
  rw [findCycle?_eq_none_iff, findCycle?_eq_none_iff]
  simp only [OnCycle, hedges, reaches_congr hedges]

end Congr

/-- Collecting pairs inserts them one by one. The parents are those listed, and the children of each
are all those given for it, in order. Pairs in another order give the same implications and the same
answer to whether there is a cycle, and the entries of a map, in any order, give that map. -/
theorem ofList_collects_pairs (pairs : List (String × List String)) :
    ofList pairs = empty.insertAll pairs ∧
      (∀ parent, parent ∈ (ofList pairs).parents ↔ ∃ children, (parent, children) ∈ pairs) ∧
      (∀ parent, (ofList pairs).children parent = (given pairs parent).flatten) ∧
      (∀ pairs', pairs'.Perm pairs →
        (∀ role target,
          (ofList pairs').implies role target = (ofList pairs).implies role target) ∧
        ((ofList pairs').findCycle? = none ↔ (ofList pairs).findCycle? = none)) ∧
      ∀ m : KeyMap (List String), pairs.Perm m.toList → ofList pairs = ⟨m⟩ := by
  refine ⟨rfl, ?_, children_ofList pairs, ?_, fun m hp => ofList_eq_of_perm_toList hp⟩
  · intro parent
    rw [mem_parents_ofList_iff]
    simp
  · intro pairs' hp
    have hedges : ∀ parent child,
        (ofList pairs').Edge parent child ↔ (ofList pairs).Edge parent child := by
      intro parent child
      simp only [edge_ofList_iff, hp.mem_iff]
    exact ⟨implies_congr hedges, findCycle?_eq_none_congr hedges⟩

/-- A parent that is listed twice has its children in another order when the list is reversed. The
entries of a map are not listed by key. -/
theorem ofList_collects_pairs_reversed :
    let pairs := [("staff", ["viewer"]), ("admin", ["staff"]), ("staff", ["admin"]), ("guest", [])]
    let entries := [("staff", ["viewer", "admin"]), ("guest", []), ("admin", ["staff"])]
    let m : KeyMap (List String) := .ofList entries
    (pairs.reverse.Perm pairs ∧
      (ofList pairs).children "staff" = ["viewer", "admin"] ∧
      (ofList pairs.reverse).children "staff" = ["admin", "viewer"] ∧
      (∀ role target, (ofList pairs.reverse).implies role target =
        (ofList pairs).implies role target) ∧
      ((ofList pairs.reverse).findCycle? = none ↔ (ofList pairs).findCycle? = none)) ∧
    entries.Perm m.toList ∧ ofList entries = ⟨m⟩ := by
  intro pairs entries m
  have hpairs : pairs.reverse.Perm pairs := List.reverse_perm pairs
  have hentries : entries.Perm m.toList := by decide +kernel
  obtain ⟨-, -, hchildren, hperm, -⟩ := ofList_collects_pairs pairs
  obtain ⟨himplies, hcycle⟩ := hperm pairs.reverse hpairs
  obtain ⟨-, -, -, -, hmap⟩ := ofList_collects_pairs entries
  exact ⟨⟨hpairs, hchildren "staff", by decide +kernel, himplies, hcycle⟩, hentries,
    hmap m hentries⟩

end AccessPolicy.RoleHierarchy
