import AccessPolicy.Role.Hierarchy
import Mathlib.Data.List.Basic
import Mathlib.Data.List.Flatten
import Mathlib.Logic.Relation

/-! Implication between roles is reachability in the hierarchy. `Searches` describes the search for
a path turn by turn: a search ends after at most one turn for each edge and one more, because a role
is expanded once, and the answer it ends with says whether a path exists. -/

namespace AccessPolicy.RoleHierarchy

/-- An edge leads from a role to each role that it implies directly. -/
def Edge (h : RoleHierarchy) (parent child : String) : Prop := child ∈ h.children parent

/-- A path of edges leads from one role to another; it may have no edge. -/
def Reaches (h : RoleHierarchy) : String → String → Prop := Relation.ReflTransGen h.Edge

theorem mem_parents_of_edge {h : RoleHierarchy} {parent child : String}
    (he : h.Edge parent child) : parent ∈ h.parents := by
  by_cases hp : parent ∈ h.parents
  · exact hp
  · rw [Edge, children_eq_nil hp] at he
    cases he

/-! ### Counting edges -/

/-- The number of edges that leave the parents which pass a test. -/
def edgesFrom (h : RoleHierarchy) (test : String → Bool) : Nat :=
  ((h.parents.filter test).flatMap h.children).length

/-- The number of edges. -/
def edgeCount (h : RoleHierarchy) : Nat := h.edgesFrom fun _ => true

theorem length_flatMap_filter_le {p q : String → Bool} (f : String → List String)
    (l : List String) (himp : ∀ x, p x = true → q x = true) :
    ((l.filter p).flatMap f).length ≤ ((l.filter q).flatMap f).length :=
  ((l.monotone_filter_right himp).flatMap f).length_le

theorem length_flatMap_filter_add_le {p q : String → Bool} (f : String → List String)
    {l : List String} {a : String} (himp : ∀ x, p x = true → q x = true) (ha : a ∈ l)
    (hp : p a = false) (hq : q a = true) :
    ((l.filter p).flatMap f).length + (f a).length ≤ ((l.filter q).flatMap f).length := by
  obtain ⟨before, after, rfl⟩ := List.append_of_mem ha
  have hbefore := length_flatMap_filter_le f before himp
  have hafter := length_flatMap_filter_le f after himp
  rw [List.filter_append, List.filter_append, List.filter_cons_of_neg (by simp [hp]),
    List.filter_cons_of_pos hq]
  simp only [List.flatMap_append, List.flatMap_cons, List.length_append]
  omega

theorem edgesFrom_le (h : RoleHierarchy) {p q : String → Bool}
    (himp : ∀ x, p x = true → q x = true) : h.edgesFrom p ≤ h.edgesFrom q :=
  length_flatMap_filter_le _ _ himp

theorem edgesFrom_add_le (h : RoleHierarchy) {p q : String → Bool} {role : String}
    (himp : ∀ x, p x = true → q x = true) (hp : p role = false) (hq : q role = true) :
    h.edgesFrom p + (h.children role).length ≤ h.edgesFrom q := by
  by_cases hr : role ∈ h.parents
  · exact length_flatMap_filter_add_le h.children himp hr hp hq
  · rw [children_eq_nil hr]
    exact h.edgesFrom_le himp

/-! ### The search turn by turn -/

/-- A search with `visited` and `stack` ends with `answer` after `turns` turns, each of which takes
one role from the stack. -/
inductive Searches (h : RoleHierarchy) (target : String) :
    List String → List String → Bool → Nat → Prop
  | exhausted (visited : List String) : Searches h target visited [] false 0
  | found (visited rest : List String) : Searches h target visited (target :: rest) true 1
  | seen {visited rest : List String} {role : String} {answer : Bool} {turns : Nat} :
      role ≠ target → role ∈ visited → Searches h target visited rest answer turns →
      Searches h target visited (role :: rest) answer (turns + 1)
  | expanded {visited rest : List String} {role : String} {answer : Bool} {turns : Nat} :
      role ≠ target → role ∉ visited →
      Searches h target (role :: visited) ((h.children role).reverse ++ rest) answer turns →
      Searches h target visited (role :: rest) answer (turns + 1)

/-- Every turn takes a role from the stack or exchanges it for its edges, which are not counted as
unexplored from then on. -/
theorem search_searches (h : RoleHierarchy) (target : String) (visited stack : List String) :
    ∃ turns ≤ stack.length + h.edgesFrom (fun p => p ∉ visited),
      h.Searches target visited stack (h.search target visited stack) turns := by
  fun_induction search h target visited stack with
  | case1 visited => exact ⟨0, Nat.zero_le _, .exhausted visited⟩
  | case2 visited rest => exact ⟨1, by simp; omega, .found visited rest⟩
  | case3 visited role rest hne hv ih =>
    obtain ⟨turns, hle, hs⟩ := ih
    exact ⟨turns + 1, by rw [List.length_cons]; omega, .seen hne hv hs⟩
  | case4 visited role rest hne hv ih =>
    obtain ⟨turns, hle, hs⟩ := ih
    have hedges : h.edgesFrom (fun p => p ∉ role :: visited) + (h.children role).length ≤
        h.edgesFrom (fun p => p ∉ visited) :=
      h.edgesFrom_add_le (by simp) (by simp) (by simpa using hv)
    rw [List.length_append, List.length_reverse] at hle
    exact ⟨turns + 1, by rw [List.length_cons]; omega, .expanded hne hv hs⟩

/-! ### The answer of a search -/

/-- What a search has expanded: not the target, and only roles whose children are expanded as well
or wait on the stack. -/
structure Frontier (h : RoleHierarchy) (target : String) (visited stack : List String) : Prop where
  target_not_mem : target ∉ visited
  children : ∀ role ∈ visited, ∀ child, h.Edge role child → child ∈ visited ∨ child ∈ stack

namespace Frontier

variable {h : RoleHierarchy} {target role : String} {visited stack rest : List String}

theorem nil (h : RoleHierarchy) (target : String) (stack : List String) :
    h.Frontier target [] stack :=
  ⟨by simp, by simp⟩

theorem seen (hf : h.Frontier target visited (role :: rest)) (hv : role ∈ visited) :
    h.Frontier target visited rest := by
  constructor
  case target_not_mem => exact hf.target_not_mem
  case children =>
    intro r hr child he
    rcases hf.children r hr child he with hc | hc
    · exact .inl hc
    · rcases List.mem_cons.mp hc with rfl | hc
      · exact .inl hv
      · exact .inr hc

theorem expanded (hf : h.Frontier target visited (role :: rest)) (hne : role ≠ target) :
    h.Frontier target (role :: visited) ((h.children role).reverse ++ rest) := by
  constructor
  case target_not_mem =>
    rw [List.mem_cons, not_or]
    exact ⟨hne.symm, hf.target_not_mem⟩
  case children =>
    intro r hr child he
    rcases List.mem_cons.mp hr with rfl | hr
    · exact .inr (List.mem_append_left _ (List.mem_reverse.mpr he))
    · rcases hf.children r hr child he with hc | hc
      · exact .inl (List.mem_cons_of_mem _ hc)
      · rcases List.mem_cons.mp hc with rfl | hc
        · exact .inl List.mem_cons_self
        · exact .inr (List.mem_append_right _ hc)

/-- A path from an expanded role to the target leaves the expanded roles through the stack. -/
theorem exists_mem_stack (hf : h.Frontier target visited stack) (hv : role ∈ visited)
    (hr : h.Reaches role target) : ∃ r ∈ stack, r ∉ visited ∧ h.Reaches r target := by
  induction hr using Relation.ReflTransGen.head_induction_on with
  | refl => exact absurd hv hf.target_not_mem
  | @head role child he hr ih =>
    by_cases hc : child ∈ visited
    · exact ih hc
    · rcases hf.children role hv child he with hc' | hc'
      · exact absurd hc' hc
      · exact ⟨child, hc', hc, hr⟩

end Frontier

theorem reaches_iff_exists_child {h : RoleHierarchy} {role target : String}
    (hne : role ≠ target) :
    h.Reaches role target ↔ ∃ child ∈ h.children role, h.Reaches child target := by
  constructor
  · intro hr
    rcases Relation.ReflTransGen.cases_head hr with heq | ⟨child, he, hc⟩
    · exact absurd heq hne
    · exact ⟨child, he, hc⟩
  · rintro ⟨child, he, hc⟩
    exact Relation.ReflTransGen.head he hc

/-- The answer of a search says whether the target can be reached from a role on the stack. -/
theorem Searches.answer_iff {h : RoleHierarchy} {target : String} {visited stack : List String}
    {answer : Bool} {turns : Nat} (hs : h.Searches target visited stack answer turns)
    (hf : h.Frontier target visited stack) :
    answer = true ↔ ∃ role ∈ stack, h.Reaches role target := by
  induction hs with
  | exhausted => simp
  | found visited rest =>
    have hr : h.Reaches target target := Relation.ReflTransGen.refl
    simp [hr]
  | @seen visited rest role answer turns hne hv _ ih =>
    rw [ih (hf.seen hv), List.exists_mem_cons_iff]
    constructor
    · exact .inr
    · rintro (hr | hrest)
      · obtain ⟨r, hmem, hnot, hreach⟩ := hf.exists_mem_stack hv hr
        rcases List.mem_cons.mp hmem with rfl | hmem
        · exact absurd hv hnot
        · exact ⟨r, hmem, hreach⟩
      · exact hrest
  | @expanded visited rest role answer turns hne hv _ ih =>
    rw [ih (hf.expanded hne), List.exists_mem_cons_iff, reaches_iff_exists_child hne]
    simp only [List.mem_append, List.mem_reverse, or_and_right, exists_or]

theorem implies_eq_search (h : RoleHierarchy) (role target : String) :
    h.implies role target = h.search target [] [role] := by
  unfold implies
  split
  · next heq => rw [heq, search, if_pos rfl]
  · rfl

theorem implies_iff_reaches {h : RoleHierarchy} {role target : String} :
    h.implies role target = true ↔ h.Reaches role target := by
  obtain ⟨_, -, hs⟩ := h.search_searches target [] [role]
  rw [implies_eq_search, hs.answer_iff (.nil h target _)]
  simp

/-- The search behind `implies` ends after at most one turn for each edge and one more, with the
answer whether a path leads from the role to the target. -/
theorem implies_ends_with_reachability (h : RoleHierarchy) (role target : String) :
    (∃ turns ≤ h.edgeCount + 1, h.Searches target [] [role] (h.implies role target) turns) ∧
      (h.implies role target = true ↔ h.Reaches role target) := by
  refine ⟨?_, implies_iff_reaches⟩
  obtain ⟨turns, hle, hs⟩ := h.search_searches target [] [role]
  rw [implies_eq_search]
  have hedges : h.edgesFrom (fun p => p ∉ ([] : List String)) = h.edgeCount := by
    simp [edgeCount]
  rw [hedges, List.length_singleton] at hle
  exact ⟨turns, by omega, hs⟩

end AccessPolicy.RoleHierarchy
