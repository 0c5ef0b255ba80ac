import AccessPolicy.Role.Cycle
import AccessPolicy.Proofs.Role.Reachability
import Mathlib.Data.List.Chain

/-! The walk for cycles finds one exactly if some edge of the hierarchy can be followed back to its
start, and what it finds is a simple cycle. `Visits` describes the walk visit by visit; it visits a
role at most once for each parent and each edge. `Consistent` is what the marks say about the path
and about the roles done with at every visit: none of these lies on a cycle. -/

namespace AccessPolicy.RoleHierarchy

/-- A list of roles goes around a cycle: it ends where it starts, passes no role twice otherwise,
and follows an edge at each step. -/
structure IsCycle (h : RoleHierarchy) (roles : List String) : Prop where
  two_le_length : 2 ≤ roles.length
  closed : roles.head? = roles.getLast?
  nodup : roles.dropLast.Nodup
  edges : roles.IsChain h.Edge

/-- An edge leaves `role` from whose end a path leads back to `role`. -/
def OnCycle (h : RoleHierarchy) (role : String) : Prop :=
  ∃ child, h.Edge role child ∧ h.Reaches child role

/-- A role is on a cycle if one of its children implies it. -/
theorem onCycle_iff_implies {h : RoleHierarchy} {role : String} :
    h.OnCycle role ↔ ∃ child ∈ h.children role, h.implies child role = true := by
  simp only [OnCycle, Edge, implies_iff_reaches]

theorem IsCycle.exists_onCycle {h : RoleHierarchy} {roles : List String} (hc : h.IsCycle roles) :
    ∃ role ∈ roles, h.OnCycle role := by
  match roles, hc.two_le_length with
  | role :: child :: rest, _ =>
    obtain ⟨he, hrest⟩ := List.isChain_cons_cons.mp hc.edges
    have hlast : (child :: rest).getLast (List.cons_ne_nil _ _) = role := by
      have hclosed := hc.closed
      rw [List.head?_cons, List.getLast?_cons_cons, List.getLast?_eq_some_getLast] at hclosed
      exact (Option.some.inj hclosed).symm
    exact ⟨role, List.mem_cons_self, child, he,
      List.relationReflTransGen_of_exists_isChain_cons rest hrest hlast⟩

/-! ### The walk visit by visit -/

/-- A walk through `roles`, to which `path` leads and before which `marks` were set, ends with a
given outcome after `visits` visits, of which each is paid to one role. -/
inductive Visits (h : RoleHierarchy) :
    List String → List String → KeyMap Mark → Walk → Nat → Prop
  | nil (path : List String) (marks : KeyMap Mark) : Visits h [] path marks (.clear marks) 0
  | done {role : String} {rest path : List String} {marks : KeyMap Mark} {w : Walk}
      {visits : Nat} :
      marks.get? role = some .done → Visits h rest path marks w visits →
      Visits h (role :: rest) path marks w (visits + 1)
  | closes {role : String} {path cycle : List String} {marks : KeyMap Mark}
      (rest : List String) :
      marks.get? role = some .visiting → closeCycle? role path = some cycle →
      Visits h (role :: rest) path marks (.cycle cycle) 1
  | lost {role : String} {rest path : List String} {marks : KeyMap Mark} {w : Walk}
      {visits : Nat} :
      marks.get? role = some .visiting → closeCycle? role path = none →
      Visits h rest path marks w visits → Visits h (role :: rest) path marks w (visits + 1)
  | descends {role : String} {path cycle : List String} {marks : KeyMap Mark} {visits : Nat}
      (rest : List String) :
      marks.get? role = none →
      Visits h (h.children role) (path ++ [role]) (marks.insert role .visiting) (.cycle cycle)
        visits →
      Visits h (role :: rest) path marks (.cycle cycle) (visits + 1)
  | returns {role : String} {rest path : List String} {marks marks' : KeyMap Mark} {w : Walk}
      {visits visits' : Nat} :
      marks.get? role = none →
      Visits h (h.children role) (path ++ [role]) (marks.insert role .visiting) (.clear marks')
        visits →
      Visits h rest path (marks'.insert role .done) w visits' →
      Visits h (role :: rest) path marks w (visits + visits' + 1)

/-- The edges that leave roles without a mark. -/
def unmarkedEdges (h : RoleHierarchy) (marks : KeyMap Mark) : Nat :=
  h.edgesFrom fun p => (marks.get? p).isNone

/-- The edges that are left to walk after a walk. -/
def remainingEdges (h : RoleHierarchy) : Walk → Nat
  | .cycle _ => 0
  | .clear marks => h.unmarkedEdges marks

theorem unmarkedEdges_insert_le (h : RoleHierarchy) (marks : KeyMap Mark) (role : String)
    (mark : Mark) : h.unmarkedEdges (marks.insert role mark) ≤ h.unmarkedEdges marks :=
  h.edgesFrom_le fun _ => isNone_of_isNone_insert

theorem unmarkedEdges_insert_add_le (h : RoleHierarchy) {marks : KeyMap Mark} {role : String}
    (mark : Mark) (hm : marks.get? role = none) :
    h.unmarkedEdges (marks.insert role mark) + (h.children role).length ≤ h.unmarkedEdges marks :=
  h.edgesFrom_add_le (fun _ => isNone_of_isNone_insert) (by simp [KeyMap.get?_insert])
    (by simp [hm])

/-- Every visit is paid for by the role that it is made to, and visits to children by the edges that
lead to them, which are counted until the parent gets its first mark. -/
theorem visitAll_visits (h : RoleHierarchy) (roles path : List String) (marks : KeyMap Mark) :
    ∃ visits, h.Visits roles path marks (h.visitAll roles path marks).1 visits ∧
      visits + h.remainingEdges (h.visitAll roles path marks).1 ≤
        roles.length + h.unmarkedEdges marks := by
  fun_induction visitAll h roles path marks with
  | case1 path marks => exact ⟨0, .nil path marks, by simp [remainingEdges]⟩
  | case2 path marks role rest hm ih =>
    obtain ⟨visits, hv, hle⟩ := ih
    exact ⟨visits + 1, .done hm hv, by rw [List.length_cons]; omega⟩
  | case3 path marks role rest hm cycle hc =>
    exact ⟨1, .closes rest hm hc, by simp [remainingEdges]; omega⟩
  | case4 path marks role rest hm hc ih =>
    obtain ⟨visits, hv, hle⟩ := ih
    exact ⟨visits + 1, .lost hm hc hv, by rw [List.length_cons]; omega⟩
  | case5 path marks role rest hm cycle _ heq ih =>
    rw [heq] at ih
    obtain ⟨visits, hv, hle⟩ := ih
    have hedges := h.unmarkedEdges_insert_add_le .visiting hm
    refine ⟨visits + 1, .descends rest hm hv, ?_⟩
    simp only [remainingEdges, List.length_cons] at *
    omega
  | case6 path marks role rest hm marks' _ heq hle w hw heq' ih ih' =>
    rw [heq] at ih
    rw [heq'] at ih'
    obtain ⟨visits, hv, hle⟩ := ih
    obtain ⟨visits', hv', hle'⟩ := ih'
    have hedges := h.unmarkedEdges_insert_add_le .visiting hm
    have hdone := h.unmarkedEdges_insert_le marks' role .done
    refine ⟨visits + visits' + 1, .returns hm hv hv', ?_⟩
    simp only [remainingEdges, List.length_cons] at *
    omega

/-! ### What the marks say -/

/-- The path is empty, or an edge leads from its end to each of `roles`. -/
def LeadsTo (h : RoleHierarchy) (path roles : List String) : Prop :=
  ∀ parent ∈ path.getLast?, ∀ role ∈ roles, h.Edge parent role

section LeadsTo

variable {h : RoleHierarchy} {role : String} {path rest : List String}

theorem LeadsTo.tail (hl : h.LeadsTo path (role :: rest)) : h.LeadsTo path rest := by
  intro parent hp r hr
  exact hl parent hp r (List.mem_cons_of_mem _ hr)

theorem leadsTo_children (h : RoleHierarchy) (path : List String) (role : String) :
    h.LeadsTo (path ++ [role]) (h.children role) := by
  intro parent hp r hr
  rw [List.getLast?_concat] at hp
  rw [← Option.some.inj hp]
  exact hr

theorem LeadsTo.isChain_concat (hl : h.LeadsTo path (role :: rest))
    (he : path.IsChain h.Edge) : (path ++ [role]).IsChain h.Edge := by
  apply he.append (List.isChain_singleton role)
  intro parent hp r hr
  rw [List.head?_cons] at hr
  rw [← Option.some.inj hr]
  exact hl parent hp role List.mem_cons_self

end LeadsTo

/-- The marks during a walk: the roles being visited are those on the path, which follows edges and
repeats no role, and the roles done with have only such children and lie on no cycle. -/
structure Consistent (h : RoleHierarchy) (path : List String) (marks : KeyMap Mark) : Prop where
  visiting_iff : ∀ role, marks.get? role = some .visiting ↔ role ∈ path
  nodup : path.Nodup
  edges : path.IsChain h.Edge
  done_of_edge : ∀ role child, marks.get? role = some .done → h.Edge role child →
    marks.get? child = some .done
  not_onCycle : ∀ role, marks.get? role = some .done → ¬h.OnCycle role

namespace Consistent

variable {h : RoleHierarchy} {path rest : List String} {marks marks' : KeyMap Mark} {role : String}

theorem empty (h : RoleHierarchy) : h.Consistent [] .empty :=
  ⟨by simp, by simp, by simp, by simp, by simp⟩

/-- All that is reached from a role that is done is done too. -/
theorem done_of_reaches (hc : h.Consistent path marks) {target : String}
    (hm : marks.get? role = some .done) (hr : h.Reaches role target) :
    marks.get? target = some .done := by
  induction hr with
  | refl => exact hm
  | tail _ he ih => exact hc.done_of_edge _ _ ih he

theorem not_mem_path (hc : h.Consistent path marks) (hm : marks.get? role = none) :
    role ∉ path := by
  intro hp
  rw [(hc.visiting_iff role).mpr hp] at hm
  cases hm

/-- The walk goes on to an unmarked role to which an edge leads from the end of the path. -/
theorem descend (hc : h.Consistent path marks) (hm : marks.get? role = none)
    (hl : h.LeadsTo path (role :: rest)) :
    h.Consistent (path ++ [role]) (marks.insert role .visiting) := by
  have hp : role ∉ path := hc.not_mem_path hm
  constructor
  case visiting_iff =>
    intro r
    rw [KeyMap.get?_insert, List.mem_append, List.mem_singleton]
    split
    · next heq => simp [heq]
    · next hne => simp [hne, hc.visiting_iff r]
  case nodup =>
    rw [List.nodup_append]
    refine ⟨hc.nodup, by simp, ?_⟩
    intro a ha b hb heq
    rw [List.mem_singleton.mp hb] at heq
    exact hp (heq ▸ ha)
  case edges => exact hl.isChain_concat hc.edges
  case done_of_edge =>
    intro r child hr he
    rw [KeyMap.get?_insert] at hr ⊢
    split at hr
    · cases hr
    · have hdone := hc.done_of_edge r child hr he
      have hne : child ≠ role := by
        rintro rfl
        rw [hm] at hdone
        cases hdone
      rw [if_neg hne]
      exact hdone
  case not_onCycle =>
    intro r hr
    rw [KeyMap.get?_insert] at hr
    split at hr
    · cases hr
    · exact hc.not_onCycle r hr

/-- The walk comes back from the end of the path when all children of the role there are done. The
role is still being visited then, so none of its children leads back to it. -/
theorem ascend (hc : h.Consistent path marks) (hm : marks.get? role = none)
    (hc' : h.Consistent (path ++ [role]) marks')
    (hchildren : ∀ child ∈ h.children role, marks'.get? child = some .done) :
    h.Consistent path (marks'.insert role .done) := by
  have hp : role ∉ path := hc.not_mem_path hm
  constructor
  case visiting_iff =>
    intro r
    rw [KeyMap.get?_insert]
    split
    · next heq => simp [heq, hp]
    · next hne => simp [hc'.visiting_iff r, hne]
  case nodup => exact hc.nodup
  case edges => exact hc.edges
  case done_of_edge =>
    intro r child hr he
    rw [KeyMap.get?_insert] at hr ⊢
    split
    · rfl
    · split at hr
      · next heq => exact hchildren child (heq ▸ he)
      · exact hc'.done_of_edge r child hr he
  case not_onCycle =>
    intro r hr
    rw [KeyMap.get?_insert] at hr
    split at hr
    · next heq =>
      subst heq
      rintro ⟨child, he, hback⟩
      have hdone := hc'.done_of_reaches (hchildren child he) hback
      have hvisiting : marks'.get? r = some .visiting := (hc'.visiting_iff r).mpr (by simp)
      rw [hvisiting] at hdone
      cases hdone
    · exact hc'.not_onCycle r hr

/-- The part of the path from a role on, closed by that role, is a cycle if an edge leads from the
end of the path to the role. -/
theorem isCycle_of_mem_path (hc : h.Consistent path marks) (hp : role ∈ path)
    (hl : h.LeadsTo path (role :: rest)) :
    ∃ cycle, closeCycle? role path = some cycle ∧ h.IsCycle cycle := by
  refine ⟨path.dropWhile (· != role) ++ [role], by rw [closeCycle?, if_pos hp], ?_⟩
  have hchain := hl.isChain_concat hc.edges
  obtain ⟨before, after, rfl, hbefore⟩ := List.eq_append_cons_of_mem hp
  have hdrop : (before ++ role :: after).dropWhile (· != role) = role :: after := by
    rw [List.dropWhile_append_of_pos, List.dropWhile_cons_of_neg (by simp)]
    intro r hr
    rw [bne_iff_ne]
    rintro rfl
    exact hbefore hr
  rw [hdrop]
  constructor
  case two_le_length => simp
  case closed => rw [List.getLast?_concat, List.cons_append, List.head?_cons]
  case nodup =>
    rw [List.dropLast_concat]
    exact (List.nodup_append.mp hc.nodup).2.1
  case edges =>
    rw [List.append_assoc] at hchain
    exact hchain.right_of_append

end Consistent

/-- What a walk through `roles` achieves: a cycle, or marks by which all `roles` are done and that
say of the path and of the roles done before what they said at the start. -/
def Achieves (h : RoleHierarchy) (roles path : List String) (marks : KeyMap Mark) : Walk → Prop
  | .cycle cycle => h.IsCycle cycle
  | .clear marks' => h.Consistent path marks' ∧
      (∀ role ∈ roles, marks'.get? role = some .done) ∧
      ∀ role, marks.get? role = some .done → marks'.get? role = some .done

theorem Achieves.cons {h : RoleHierarchy} {role : String} {rest path : List String}
    {marks marks' : KeyMap Mark} {w : Walk} (ha : h.Achieves rest path marks' w)
    (hrole : marks'.get? role = some .done)
    (hle : ∀ r, marks.get? r = some .done → marks'.get? r = some .done) :
    h.Achieves (role :: rest) path marks w := by
  cases w with
  | cycle cycle => exact ha
  | clear marks'' =>
    obtain ⟨hc, hrest, hkeep⟩ := ha
    refine ⟨hc, ?_, ?_⟩
    · intro r hr
      rcases List.mem_cons.mp hr with rfl | hr
      · exact hkeep r hrole
      · exact hrest r hr
    · intro r hr
      exact hkeep r (hle r hr)

/-- A walk over all roles achieves what it is for. -/
theorem Visits.achieves {h : RoleHierarchy} {roles path : List String} {marks : KeyMap Mark}
    {w : Walk} {visits : Nat} (hv : h.Visits roles path marks w visits)
    (hc : h.Consistent path marks) (hl : h.LeadsTo path roles) : h.Achieves roles path marks w := by
  induction hv with
  | nil => exact ⟨hc, by simp, fun _ hr => hr⟩
  | done hm _ ih => exact (ih hc hl.tail).cons hm fun _ hr => hr
  | closes rest hm hclose =>
    obtain ⟨cycle, hcycle, his⟩ := hc.isCycle_of_mem_path ((hc.visiting_iff _).mp hm) hl
    rw [hclose] at hcycle
    obtain rfl := Option.some.inj hcycle
    exact his
  | lost hm hclose _ _ =>
    obtain ⟨cycle, hcycle, -⟩ := hc.isCycle_of_mem_path ((hc.visiting_iff _).mp hm) hl
    rw [hclose] at hcycle
    cases hcycle
  | descends rest hm _ ih => exact ih (hc.descend hm hl) (h.leadsTo_children _ _)
  | @returns role rest path marks marks' w _ _ hm _ _ ih ih' =>
    obtain ⟨hc', hchildren, hkeep⟩ := ih (hc.descend hm hl) (h.leadsTo_children _ _)
    have hrest := ih' (hc.ascend hm hc' hchildren) hl.tail
    apply hrest.cons
    · rw [KeyMap.get?_insert, if_pos rfl]
    · intro r hr
      rw [KeyMap.get?_insert]
      split
      · rfl
      · next hne =>
        apply hkeep
        rw [KeyMap.get?_insert, if_neg hne]
        exact hr

/-! ### The whole walk -/

/-- The cycle that a walk has found. -/
def Walk.cycle? : Walk → Option (List String)
  | .cycle roles => some roles
  | .clear _ => none

theorem findCycle?_eq_cycle? (h : RoleHierarchy) :
    h.findCycle? = (h.visitAll h.parents [] .empty).1.cycle? := by
  unfold findCycle?
  cases (h.visitAll h.parents [] .empty).1 <;> rfl

theorem visitAll_parents_achieves (h : RoleHierarchy) :
    h.Achieves h.parents [] .empty (h.visitAll h.parents [] .empty).1 := by
  obtain ⟨_, hv, -⟩ := h.visitAll_visits h.parents [] .empty
  exact hv.achieves (.empty h) (by simp [LeadsTo])

/-- The walk ends with a cycle, or it has marked every parent, and then no role is on a cycle. -/
theorem findCycle?_cases (h : RoleHierarchy) :
    (∃ roles, h.findCycle? = some roles ∧ h.IsCycle roles) ∨
      h.findCycle? = none ∧ ∀ role, ¬h.OnCycle role := by
  have ha := h.visitAll_parents_achieves
  rw [findCycle?_eq_cycle?]
  cases hw : (h.visitAll h.parents [] .empty).1 with
  | cycle roles =>
    rw [hw] at ha
    exact .inl ⟨roles, rfl, ha⟩
  | clear marks =>
    rw [hw] at ha
    obtain ⟨hc, hdone, -⟩ := ha
    refine .inr ⟨rfl, fun role hrole => ?_⟩
    obtain ⟨child, he, -⟩ := id hrole
    exact hc.not_onCycle role (hdone role (mem_parents_of_edge he)) hrole

theorem isCycle_of_findCycle? {h : RoleHierarchy} {roles : List String}
    (hf : h.findCycle? = some roles) : h.IsCycle roles := by
  rcases h.findCycle?_cases with ⟨cycle, hcycle, his⟩ | ⟨hnone, -⟩
  · obtain rfl := Option.some.inj (hf.symm.trans hcycle)
    exact his
  · cases hf.symm.trans hnone

/-- Nothing is found if and only if no role is on a cycle. -/
theorem findCycle?_eq_none_iff {h : RoleHierarchy} :
    h.findCycle? = none ↔ ∀ role, ¬h.OnCycle role := by
  rcases h.findCycle?_cases with ⟨cycle, hcycle, his⟩ | ⟨hnone, hclear⟩
  · obtain ⟨role, -, hrole⟩ := his.exists_onCycle
    constructor
    · intro hnone
      cases hnone.symm.trans hcycle
    · intro hclear
      exact absurd hrole (hclear role)
  · exact iff_of_true hnone hclear

/-- The walk for cycles ends after at most one visit for each parent and each edge. It finds nothing
exactly if no edge `parent → child` has a child that implies its parent, and what it finds is a
simple cycle of the hierarchy. -/
theorem findCycle?_ends_with_cycle (h : RoleHierarchy) :
    (∃ w, ∃ visits ≤ h.parents.length + h.edgeCount,
      h.Visits h.parents [] .empty w visits ∧ h.findCycle? = w.cycle?) ∧
    (h.findCycle? = none ↔
      ¬∃ parent, ∃ child ∈ h.children parent, h.implies child parent = true) ∧
    ∀ roles, h.findCycle? = some roles → h.IsCycle roles := by
  refine ⟨?_, ?_, fun roles hf => isCycle_of_findCycle? hf⟩
  · obtain ⟨visits, hv, hle⟩ := h.visitAll_visits h.parents [] .empty
    have hedges : h.unmarkedEdges .empty = h.edgeCount := by
      simp [unmarkedEdges, edgeCount]
    exact ⟨_, visits, by omega, hv, h.findCycle?_eq_cycle?⟩
  · rw [findCycle?_eq_none_iff, not_exists]
    simp only [onCycle_iff_implies]

end AccessPolicy.RoleHierarchy
