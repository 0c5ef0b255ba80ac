import AccessPolicy.KeyMap

/-! Role hierarchies. An edge leads from a role to a role that it implies, and implication is read
transitively: whoever holds `a` passes a check for `b` if a path of edges leads from `a` to `b`.
Edges may form cycles; the search for a path visits each role once and so ends. -/

namespace AccessPolicy

/-- For each parent the roles that it implies directly, in the order given. -/
structure RoleHierarchy where
  edges : KeyMap (List String)
deriving DecidableEq

namespace RoleHierarchy

instance : Inhabited RoleHierarchy := ⟨⟨.empty⟩⟩

/-- The hierarchy in which no role implies another. -/
def empty : RoleHierarchy := ⟨.empty⟩

/-- Adds implied roles to those that `parent` already has. -/
def insert (h : RoleHierarchy) (parent : String) (children : List String) : RoleHierarchy :=
  ⟨h.edges.upsert parent fun old => old.getD [] ++ children⟩

/-- The hierarchy with the pairs of parent and children inserted in turn. -/
def ofList (pairs : List (String × List String)) : RoleHierarchy :=
  pairs.foldl (fun h (parent, children) => h.insert parent children) empty

/-- No role has been given children. -/
def isEmpty (h : RoleHierarchy) : Bool := h.edges.isEmpty

/-- The roles that have been given children, in increasing order. -/
def parents (h : RoleHierarchy) : List String := h.edges.keys

/-- The roles directly implied by `role`. -/
def children (h : RoleHierarchy) (role : String) : List String := (h.edges.get? role).getD []

theorem children_eq_nil {h : RoleHierarchy} {role : String} (hr : role ∉ h.parents) :
    h.children role = [] := by
  have : h.edges.get? role = none := List.lookup_eq_none_iff.mpr fun e he => by
    simp only [bne_iff_ne]
    rintro rfl
    exact hr (List.mem_map_of_mem he)
  simp [children, this]

/-- Fewer items pass a test that implies another one and that some item fails which passes the
other. -/
theorem countP_lt_countP {p q : String → Bool} {l : List String} {a : String}
    (himp : ∀ x, p x = true → q x = true) (ha : a ∈ l) (hp : p a = false) (hq : q a = true) :
    l.countP p < l.countP q := by
  induction l with
  | nil => cases ha
  | cons x l ih =>
    have hle : l.countP p ≤ l.countP q := List.countP_mono_left fun x _ => himp x
    rcases List.mem_cons.mp ha with rfl | ha
    · simp only [List.countP_cons, hp, hq, Bool.false_eq_true, if_false, if_true]
      omega
    · have ih := ih ha
      have hx := himp x
      simp only [List.countP_cons]
      cases hpx : p x
      · simp only [Bool.false_eq_true, if_false]
        omega
      · simp only [hx hpx, if_true]
        omega

/-- How many parents are not among `roles`: while it falls a search goes on, and it cannot fall
forever. -/
def countOutside (h : RoleHierarchy) (roles : List String) : Nat :=
  h.parents.countP fun p => p ∉ roles

theorem countOutside_cons_le (h : RoleHierarchy) (role : String) (roles : List String) :
    h.countOutside (role :: roles) ≤ h.countOutside roles :=
  List.countP_mono_left fun p _ hp => by
    simp only [List.mem_cons, not_or, decide_eq_true_eq] at hp ⊢
    exact hp.2

theorem countOutside_cons_lt {h : RoleHierarchy} {role : String} {roles : List String}
    (hp : role ∈ h.parents) (hr : role ∉ roles) :
    h.countOutside (role :: roles) < h.countOutside roles :=
  countP_lt_countP (fun p hp => by
    simp only [List.mem_cons, not_or, decide_eq_true_eq] at hp ⊢
    exact hp.2) hp (by simp) (by simpa using hr)

/-- Whether a path leads to `target` from one of the roles on `stack`, by paths that avoid the roles
in `visited`. The top of the stack is searched first, and the last child of a role before the
others. -/
def search (h : RoleHierarchy) (target : String) (visited stack : List String) : Bool :=
  match stack with
  | [] => false
  | role :: rest =>
    if role = target then true
    else if role ∈ visited then h.search target visited rest
    else h.search target (role :: visited) ((h.children role).reverse ++ rest)
termination_by (h.countOutside visited, stack.length)
decreasing_by
  · exact Prod.Lex.right _ (Nat.lt_succ_self _)
  · next hv =>
    by_cases hp : role ∈ h.parents
    · exact Prod.Lex.left _ _ (countOutside_cons_lt hp hv)
    · rw [children_eq_nil hp]
      rcases Nat.lt_or_eq_of_le (h.countOutside_cons_le role visited) with hlt | heq
      · exact Prod.Lex.left _ _ hlt
      · rw [heq]
        exact Prod.Lex.right _ (Nat.lt_succ_self _)

/-- Whether holding `role` passes a check for `target`. -/
def implies (h : RoleHierarchy) (role target : String) : Bool :=
  if role = target then true else h.search target [] [role]

end RoleHierarchy

end AccessPolicy
