import AccessPolicy.Proofs.KeyMap
import AccessPolicy.Proofs.Role.Cycle

/-! Which cycle the walk for cycles finds. `Explores` describes a walk that remembers nothing but
the path on which it is, and so passes a role again each time that an edge leads to it. What was
done with before reaches no cycle, so passing it again finds nothing: the marks save work and do not
change the first cycle that is met. A walk without marks depends only on the edges below the roles
where it starts. Hence the cycle that is found lies below the least parent that reaches any, and the
smaller parents that are not below it could as well be absent. -/

namespace AccessPolicy.RoleHierarchy

/-- A walk through `roles`, to which `path` leads, meets this cycle first, or none. -/
inductive Explores (h : RoleHierarchy) :
    List String → List String → Option (List String) → Prop
  | exhausted (path : List String) : Explores h [] path none
  | closes {role : String} {path cycle : List String} (rest : List String) :
      closeCycle? role path = some cycle → Explores h (role :: rest) path (some cycle)
  | descends {role : String} {path cycle : List String} (rest : List String) :
      role ∉ path → Explores h (h.children role) (path ++ [role]) (some cycle) →
      Explores h (role :: rest) path (some cycle)
  | returns {role : String} {rest path : List String} {found : Option (List String)} :
      role ∉ path → Explores h (h.children role) (path ++ [role]) none →
      Explores h rest path found → Explores h (role :: rest) path found

theorem closeCycle?_eq_some_iff {role : String} {path cycle : List String} :
    closeCycle? role path = some cycle ↔
      role ∈ path ∧ path.dropWhile (· != role) ++ [role] = cycle := by
  unfold closeCycle?
  split
  · next hp => simp [hp]
  · next hp => simp [hp]

namespace Explores

variable {h : RoleHierarchy} {role : String} {roles rest path cycle : List String}
  {found found' : Option (List String)}

theorem unique (hf : h.Explores roles path found) (hf' : h.Explores roles path found') :
    found = found' := by
  induction hf generalizing found' with
  | exhausted path =>
    cases hf' with
    | exhausted => rfl
  | closes rest hclose =>
    have hp := (closeCycle?_eq_some_iff.mp hclose).1
    cases hf' with
    | closes _ hclose' => exact hclose.symm.trans hclose'
    | descends _ hp' _ => exact absurd hp hp'
    | returns hp' _ _ => exact absurd hp hp'
  | descends rest hp _ ih =>
    cases hf' with
    | closes _ hclose' => exact absurd (closeCycle?_eq_some_iff.mp hclose').1 hp
    | descends _ _ hchildren' => exact ih hchildren'
    | returns _ hchildren' _ => cases ih hchildren'
  | returns hp _ _ ih ih' =>
    cases hf' with
    | closes _ hclose' => exact absurd (closeCycle?_eq_some_iff.mp hclose').1 hp
    | descends _ _ hchildren' => cases ih hchildren'
    | returns _ _ hrest' => exact ih' hrest'

theorem append (hf : h.Explores roles path none) (hrest : h.Explores rest path found) :
    h.Explores (roles ++ rest) path found := by
  generalize hnone : (none : Option (List String)) = outcome at hf
  induction hf with
  | exhausted => exact hrest
  | closes => cases hnone
  | descends => cases hnone
  | returns hp hchildren _ _ ih => exact .returns hp hchildren (ih hrest hnone)

/-- What stands behind the role whose walk meets a cycle is not visited. -/
theorem of_singleton (hf : h.Explores [role] path (some cycle)) (rest : List String) :
    h.Explores (role :: rest) path (some cycle) := by
  cases hf with
  | closes _ hclose => exact .closes rest hclose
  | descends _ hp hchildren => exact .descends rest hp hchildren
  | returns _ _ hrest => cases hrest

/-- One of the roles is the first whose walk meets a cycle. -/
theorem exists_first (hf : h.Explores roles path (some cycle)) :
    ∃ before role after, roles = before ++ role :: after ∧ h.Explores before path none ∧
      h.Explores [role] path (some cycle) := by
  generalize hsome : some cycle = found at hf
  induction hf with
  | exhausted => cases hsome
  | @closes role path _ rest hclose =>
    cases hsome
    exact ⟨[], role, rest, rfl, .exhausted path, .closes [] hclose⟩
  | @descends role path _ rest hp hchildren _ =>
    cases hsome
    exact ⟨[], role, rest, rfl, .exhausted path, .descends [] hp hchildren⟩
  | @returns role rest path _ hp hchildren _ _ ih =>
    obtain ⟨before, first, after, hroles, hbefore, hfirst⟩ := ih hsome
    exact ⟨role :: before, first, after, by rw [hroles, List.cons_append],
      .returns hp hchildren hbefore, hfirst⟩

/-- A walk that meets no cycle passes all that can be reached. -/
theorem not_onCycle (hf : h.Explores roles path none) :
    ∀ role ∈ roles, ∀ target, h.Reaches role target → ¬h.OnCycle target := by
  generalize hnone : (none : Option (List String)) = outcome at hf
  induction hf with
  | exhausted => simp
  | closes => cases hnone
  | descends => cases hnone
  | @returns role rest path found _ _ _ ih ih' =>
    have hchildren := ih rfl
    intro r hr target hreach
    rcases List.mem_cons.mp hr with rfl | hr
    · rcases Relation.ReflTransGen.cases_head hreach with rfl | ⟨child, he, hreach⟩
      · -- a cycle through the role itself leads through one of its children
        rintro ⟨child, he, hback⟩
        exact hchildren child he r hback ⟨child, he, hback⟩
      · exact hchildren child he target hreach
    · exact ih' hnone r hr target hreach

/-- The cycle that is met consists of roles on the path and of roles that the walk reaches. -/
theorem forall_mem (hf : h.Explores roles path (some cycle)) {P : String → Prop}
    (hedge : ∀ parent child, P parent → h.Edge parent child → P child)
    (hpath : ∀ role ∈ path, P role) (hroles : ∀ role ∈ roles, P role) :
    ∀ role ∈ cycle, P role := by
  generalize hsome : some cycle = found at hf
  induction hf with
  | exhausted => cases hsome
  | @closes role path _ rest hclose =>
    cases hsome
    rw [← (closeCycle?_eq_some_iff.mp hclose).2]
    intro r hr
    rcases List.mem_append.mp hr with hr | hr
    · exact hpath r ((List.dropWhile_sublist _).subset hr)
    · rw [List.mem_singleton.mp hr]
      exact hroles role List.mem_cons_self
  | @descends role path _ rest hp _ ih =>
    have hrole : P role := hroles role List.mem_cons_self
    refine ih ?_ (fun child he => hedge role child hrole he) hsome
    intro r hr
    rcases List.mem_append.mp hr with hr | hr
    · exact hpath r hr
    · rw [List.mem_singleton.mp hr]
      exact hrole
  | returns _ _ _ _ ih =>
    exact ih hpath (fun r hr => hroles r (List.mem_cons_of_mem _ hr)) hsome

/-- The walk depends only on the edges that leave the roles it reaches. -/
theorem congr {h' : RoleHierarchy} (hf : h.Explores roles path found)
    (hsame : ∀ role ∈ roles, ∀ target, h.Reaches role target →
      h'.children target = h.children target) : h'.Explores roles path found := by
  induction hf with
  | exhausted path => exact .exhausted path
  | closes rest hclose => exact .closes rest hclose
  | @descends role path cycle rest hp _ ih =>
    have hrole := hsame role List.mem_cons_self
    refine .descends rest hp ?_
    rw [hrole role .refl]
    exact ih fun child he target hr => hrole target (.head he hr)
  | @returns role rest path found hp _ _ ih ih' =>
    have hrole := hsame role List.mem_cons_self
    refine .returns hp ?_ (ih' fun r hr => hsame r (List.mem_cons_of_mem _ hr))
    rw [hrole role .refl]
    exact ih fun child he target hr => hrole target (.head he hr)

end Explores

/-! ### Roles below which there is no cycle -/

/-- No role that can be reached lies on the path or on a cycle. -/
def Clear (h : RoleHierarchy) (path : List String) (role : String) : Prop :=
  ∀ target, h.Reaches role target → target ∉ path ∧ ¬h.OnCycle target

section Clear

variable {h : RoleHierarchy} {path : List String} {role : String}

theorem Clear.not_mem (hc : h.Clear path role) : role ∉ path := (hc role .refl).1

theorem Clear.of_edge {child : String} (hc : h.Clear path role) (he : h.Edge role child) :
    h.Clear (path ++ [role]) child := by
  intro target hr
  obtain ⟨hp, hcycle⟩ := hc target (.head he hr)
  refine ⟨?_, hcycle⟩
  intro hmem
  rcases List.mem_append.mp hmem with hmem | hmem
  · exact hp hmem
  · rw [List.mem_singleton.mp hmem] at hr
    exact (hc role .refl).2 ⟨child, he, hr⟩

theorem countOutside_concat_lt (hp : role ∈ h.parents) (hr : role ∉ path) :
    h.countOutside (path ++ [role]) < h.countOutside path := by
  have heq : h.countOutside (path ++ [role]) = h.countOutside (role :: path) := by
    simp [countOutside, or_comm]
  rw [heq]
  exact countOutside_cons_lt hp hr

/-- A walk through roles below which there is no cycle ends, because its path passes no parent
twice. -/
theorem explores_none {roles : List String} (hc : ∀ role ∈ roles, h.Clear path role) :
    h.Explores roles path none := by
  induction hn : h.countOutside path using Nat.strong_induction_on generalizing roles path with
  | _ n ih =>
    induction roles with
    | nil => exact .exhausted path
    | cons role rest ih' =>
      have hrole := hc role List.mem_cons_self
      refine .returns hrole.not_mem ?_ (ih' fun r hr => hc r (List.mem_cons_of_mem _ hr))
      by_cases hp : role ∈ h.parents
      · have hlt := countOutside_concat_lt hp hrole.not_mem
        exact ih _ (hn ▸ hlt) (fun child he => hrole.of_edge he) rfl
      · rw [children_eq_nil hp]
        exact .exhausted _

theorem Consistent.clear_of_done {marks : KeyMap Mark} (hc : h.Consistent path marks)
    (hm : marks.get? role = some .done) : h.Clear path role := by
  intro target hr
  have hdone := hc.done_of_reaches hm hr
  refine ⟨?_, hc.not_onCycle target hdone⟩
  intro hp
  rw [(hc.visiting_iff target).mpr hp] at hdone
  cases hdone

end Clear

/-! ### The walk with marks meets the same cycle -/

/-- A walk with marks finds what an exploration without marks finds. -/
theorem Visits.explores {h : RoleHierarchy} {roles path : List String} {marks : KeyMap Mark}
    {w : Walk} {visits : Nat} (hv : h.Visits roles path marks w visits)
    (hc : h.Consistent path marks) (hl : h.LeadsTo path roles) :
    h.Explores roles path w.cycle? := by
  induction hv with
  | nil path marks => exact .exhausted path
  | done hm _ ih =>
    have hclear := hc.clear_of_done hm
    exact .returns hclear.not_mem (explores_none fun child he => hclear.of_edge he)
      (ih hc hl.tail)
  | closes rest hm hclose => exact .closes rest hclose
  | lost hm hclose _ _ =>
    have hp := (hc.visiting_iff _).mp hm
    rw [closeCycle?, if_pos hp] at hclose
    cases hclose
  | descends rest hm _ ih =>
    exact .descends rest (hc.not_mem_path hm) (ih (hc.descend hm hl) (h.leadsTo_children _ _))
  | returns hm hv _ ih ih' =>
    have hdown := hc.descend hm hl
    obtain ⟨hc', hchildren, -⟩ := hv.achieves hdown (h.leadsTo_children _ _)
    exact .returns (hc.not_mem_path hm) (ih hdown (h.leadsTo_children _ _))
      (ih' (hc.ascend hm hc' hchildren) hl.tail)

theorem explores_parents_iff {h : RoleHierarchy} {found : Option (List String)} :
    h.Explores h.parents [] found ↔ h.findCycle? = found := by
  obtain ⟨_, hv, -⟩ := h.visitAll_visits h.parents [] .empty
  have hexplores := hv.explores (.empty h) (by simp [LeadsTo])
  rw [← findCycle?_eq_cycle?] at hexplores
  constructor
  · intro hf
    exact hexplores.unique hf
  · rintro rfl
    exact hexplores

/-! ### Parents left out -/

/-- The hierarchy without the edges that leave some of its parents. -/
def dropParents (h : RoleHierarchy) (drop : String → Prop) [DecidablePred drop] : RoleHierarchy :=
  ⟨h.edges.filter fun parent => ¬drop parent⟩

section DropParents

variable {h : RoleHierarchy} {drop : String → Prop} [DecidablePred drop] {role target : String}

theorem parents_dropParents :
    (h.dropParents drop).parents = h.parents.filter fun parent => ¬drop parent :=
  h.edges.keys_filter _

theorem children_dropParents :
    (h.dropParents drop).children role = if drop role then [] else h.children role := by
  rw [children, dropParents, KeyMap.get?_filter]
  by_cases hd : drop role <;> simp [hd, children]

theorem Edge.of_dropParents (he : (h.dropParents drop).Edge role target) : h.Edge role target := by
  rw [Edge, children_dropParents] at he
  split at he
  · cases he
  · exact he

theorem Reaches.of_dropParents (hr : (h.dropParents drop).Reaches role target) :
    h.Reaches role target := by
  have hle : (h.dropParents drop).Edge ≤ h.Edge := fun _ _ he => he.of_dropParents
  exact Relation.ReflTransGen.mono hle role target hr

theorem OnCycle.of_dropParents (hc : (h.dropParents drop).OnCycle role) : h.OnCycle role := by
  obtain ⟨child, he, hback⟩ := hc
  exact ⟨child, he.of_dropParents, hback.of_dropParents⟩

/-- Parents that cannot be reached from the first one whose walk meets a cycle may be left out. -/
theorem findCycle?_dropParents {before after cycle : List String} {first : String}
    (hparents : h.parents = before ++ first :: after) (hbefore : h.Explores before [] none)
    (hfirst : h.Explores [first] [] (some cycle))
    (hkeep : ∀ target, h.Reaches first target → ¬drop target) :
    (h.dropParents drop).findCycle? = some cycle := by
  have hclear : ∀ role ∈ before.filter fun parent => ¬drop parent,
      (h.dropParents drop).Clear [] role := by
    intro role hrole target hr
    have hparent : role ∈ before := List.mem_of_mem_filter hrole
    have hacyclic := hbefore.not_onCycle role hparent target hr.of_dropParents
    exact ⟨List.not_mem_nil, fun hc => hacyclic hc.of_dropParents⟩
  have hwalk : (h.dropParents drop).Explores [first] [] (some cycle) := by
    apply hfirst.congr
    intro role hrole target hr
    rw [List.mem_singleton.mp hrole] at hr
    rw [children_dropParents, if_neg (hkeep target hr)]
  have hkept : ¬drop first := hkeep first .refl
  rw [← explores_parents_iff, parents_dropParents, hparents, List.filter_append,
    List.filter_cons_of_pos (by simpa using hkept)]
  exact (explores_none hclear).append (hwalk.of_singleton _)

end DropParents

/-- The cycle that is found lies below the least parent from which a role on a cycle can be reached.
It is found as well when the smaller parents are left out that cannot be reached from that one. -/
theorem findCycle?_below_least_parent (h : RoleHierarchy) {roles : List String}
    (hf : h.findCycle? = some roles) :
    ∃ least ∈ h.parents, (∃ role, h.implies least role = true ∧ h.OnCycle role) ∧
      (∀ parent ∈ h.parents, parent < least →
        ∀ role, h.implies parent role = true → ¬h.OnCycle role) ∧
      (∀ role ∈ roles, h.implies least role = true) ∧
      (h.dropParents fun parent => parent < least ∧ h.implies least parent = false).findCycle? =
        some roles := by
  obtain ⟨before, least, after, hparents, hbefore, hleast⟩ :=
    (explores_parents_iff.mpr hf).exists_first
  have hmem : least ∈ h.parents := hparents ▸ List.mem_append_right before List.mem_cons_self
  have hbelow : ∀ role ∈ roles, h.implies least role = true := by
    have hself : h.Reaches least least := .refl
    have hreaches := hleast.forall_mem (P := h.Reaches least) (fun _ _ hr he => hr.tail he)
      (by simp) (by simpa using hself)
    exact fun role hrole => implies_iff_reaches.mpr (hreaches role hrole)
  refine ⟨least, hmem, ?_, ?_, hbelow, ?_⟩
  · obtain ⟨role, hrole, hcycle⟩ := (isCycle_of_findCycle? hf).exists_onCycle
    exact ⟨role, hbelow role hrole, hcycle⟩
  · intro parent hparent hlt role hrole
    have hsorted : h.parents.Pairwise (· < ·) := h.edges.pairwise_keys
    rw [hparents] at hparent hsorted
    rcases List.mem_append.mp hparent with hparent | hparent
    · exact hbefore.not_onCycle parent hparent role (implies_iff_reaches.mp hrole)
    · -- the parents from the least one on are not smaller
      rcases List.mem_cons.mp hparent with rfl | hparent
      · exact absurd hlt (String.lt_irrefl parent)
      · have hgt := (List.pairwise_cons.mp (List.pairwise_append.mp hsorted).2.1).1 parent hparent
        exact absurd hlt (String.lt_asymm hgt)
  · apply findCycle?_dropParents hparents hbefore hleast
    rintro target hr ⟨-, hnot⟩
    rw [implies_iff_reaches.mpr hr] at hnot
    cases hnot

/-- Two smaller parents reach no cycle. One of them lies below the least parent that does, and the
other one is left out. -/
theorem findCycle?_below_least_parent_staff :
    let h := RoleHierarchy.ofList [("admin", ["guest"]), ("editor", ["guest"]),
      ("staff", ["editor", "staff"])]
    h.findCycle? = some ["staff", "staff"] ∧
      (∀ parent ∈ h.parents, parent < "staff" →
        ∀ role, h.implies parent role = true → ¬h.OnCycle role) ∧
      (h.dropParents fun parent => parent < "staff" ∧ h.implies "staff" parent = false).findCycle? =
        some ["staff", "staff"] := by
  intro h
  have hparents : h.parents = ["admin", "editor"] ++ ["staff"] := by decide +kernel
  have hadmin : h.children "admin" = ["guest"] := by decide +kernel
  have heditor : h.children "editor" = ["guest"] := by decide +kernel
  have hstaff : h.children "staff" = ["editor", "staff"] := by decide +kernel
  have hguest : h.children "guest" = [] := by decide +kernel
  have hleaf : ∀ path, "guest" ∉ path → h.Explores ["guest"] path none := fun _ hp =>
    .returns hp (hguest ▸ .exhausted _) (.exhausted _)
  have hbefore : h.Explores ["admin", "editor"] [] none := by
    refine .returns (by decide) ?_ (.returns (by decide) ?_ (.exhausted _))
    · rw [hadmin]
      exact hleaf _ (by decide)
    · rw [heditor]
      exact hleaf _ (by decide)
  have hwalk : h.Explores ["staff"] [] (some ["staff", "staff"]) := by
    refine .descends [] (by decide) ?_
    rw [hstaff]
    refine .returns (by decide) ?_ (.closes [] (by decide))
    rw [heditor]
    exact hleaf _ (by decide)
  have hf : h.findCycle? = some ["staff", "staff"] := by
    rw [← explores_parents_iff, hparents]
    exact hbefore.append hwalk
  obtain ⟨least, hmem, ⟨role, hrole, hcycle⟩, hsmaller, -, hkept⟩ :=
    findCycle?_below_least_parent h hf
  have hleast : least = "staff" := by
    rw [hparents] at hmem
    rcases List.mem_append.mp hmem with hmem | hmem
    · exact absurd hcycle (hbefore.not_onCycle least hmem role (implies_iff_reaches.mp hrole))
    · exact List.mem_singleton.mp hmem
  subst hleast
  exact ⟨hf, hsmaller, hkept⟩

end AccessPolicy.RoleHierarchy
