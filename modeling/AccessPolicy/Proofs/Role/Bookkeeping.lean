import AccessPolicy.Proofs.Role.Cycle
import Mathlib.Data.Finset.Card

/-! The bookkeeping of the walk for cycles. All visits share one path and one table of marks: a role
goes onto the path and is marked when it is entered, and off the path and done with when it is left.
`Runs` tells how a run through some roles changes this state, and `Calls` which visits it makes,
with the state in which each starts. At every visit the marks are `Consistent` with the path, and a
visit that finds no cycle puts the path back as it was. -/

namespace AccessPolicy.RoleHierarchy

/-- What the visits of a walk share: the path from its start, and the marks. -/
structure Trail where
  path : List String
  marks : KeyMap Mark

namespace Trail

/-- Nothing is on the path and nothing is marked. -/
def start : Trail := ⟨[], .empty⟩

/-- A role is entered: it is being visited, at the end of the path. -/
def enter (t : Trail) (role : String) : Trail :=
  ⟨t.path ++ [role], t.marks.insert role .visiting⟩

/-- A role is left: the end of the path is taken off, and the role is done. -/
def leave (t : Trail) (role : String) : Trail := ⟨t.path.dropLast, t.marks.insert role .done⟩

/-- What a run that ends in this state comes to for the walk: the cycle that it found, or the marks
that it leaves. -/
def walk (t : Trail) : Option (List String) → Walk
  | some cycle => .cycle cycle
  | none => .clear t.marks

theorem leave_enter (path : List String) (marks : KeyMap Mark) (role : String) :
    leave ⟨path ++ [role], marks⟩ role = ⟨path, marks.insert role .done⟩ := by
  rw [leave, List.dropLast_concat]

end Trail

/-- A run visits roles in turn until it finds a cycle or none is left, and changes the state that
the visits share from one to another. -/
inductive Runs (h : RoleHierarchy) : List String → Trail → Option (List String) → Trail → Prop
  | exhausted (t : Trail) : Runs h [] t none t
  | done {role : String} {rest : List String} {t t' : Trail} {found : Option (List String)} :
      t.marks.get? role = some .done → Runs h rest t found t' → Runs h (role :: rest) t found t'
  | closes {role : String} {t : Trail} {cycle : List String} (rest : List String) :
      t.marks.get? role = some .visiting → closeCycle? role t.path = some cycle →
      Runs h (role :: rest) t (some cycle) t
  | lost {role : String} {rest : List String} {t t' : Trail} {found : Option (List String)} :
      t.marks.get? role = some .visiting → closeCycle? role t.path = none →
      Runs h rest t found t' → Runs h (role :: rest) t found t'
  | descends {role : String} {t t' : Trail} {cycle : List String} (rest : List String) :
      t.marks.get? role = none → Runs h (h.children role) (t.enter role) (some cycle) t' →
      Runs h (role :: rest) t (some cycle) t'
  | returns {role : String} {rest : List String} {t t' t'' : Trail}
      {found : Option (List String)} :
      t.marks.get? role = none → Runs h (h.children role) (t.enter role) none t' →
      Runs h rest (t'.leave role) found t'' → Runs h (role :: rest) t found t''

/-- A run through some roles makes this visit, which starts in the given state. -/
inductive Calls (h : RoleHierarchy) : List String → Trail → String → Trail → Prop
  | here (role : String) (rest : List String) (t : Trail) : Calls h (role :: rest) t role t
  | inside {role called : String} {t s : Trail} (rest : List String) :
      t.marks.get? role = none → Calls h (h.children role) (t.enter role) called s →
      Calls h (role :: rest) t called s
  | next {role called : String} {rest : List String} {t t' s : Trail} :
      Runs h [role] t none t' → Calls h rest t' called s → Calls h (role :: rest) t called s

/-! ### Runs are what the walk does -/

theorem Visits.exists_runs {h : RoleHierarchy} {roles path : List String} {marks : KeyMap Mark}
    {w : Walk} {visits : Nat} (hv : h.Visits roles path marks w visits) :
    ∃ t', h.Runs roles ⟨path, marks⟩ w.cycle? t' ∧
      ∀ marks', w = .clear marks' → t' = ⟨path, marks'⟩ := by
  induction hv with
  | nil path marks => exact ⟨_, .exhausted _, fun marks' hw => by cases hw; rfl⟩
  | done hm _ ih =>
    obtain ⟨t', hr, ht⟩ := ih
    exact ⟨t', .done hm hr, ht⟩
  | closes rest hm hclose => exact ⟨_, .closes rest hm hclose, nofun⟩
  | lost hm hclose _ ih =>
    obtain ⟨t', hr, ht⟩ := ih
    exact ⟨t', .lost hm hclose hr, ht⟩
  | descends rest hm _ ih =>
    obtain ⟨t', hr, -⟩ := ih
    exact ⟨t', .descends rest hm hr, nofun⟩
  | @returns role rest path marks marks' w _ _ hm _ _ ih ih' =>
    obtain ⟨t', hr, ht⟩ := ih
    obtain ⟨t'', hr', ht'⟩ := ih'
    obtain rfl := ht marks' rfl
    exact ⟨t'', .returns hm hr (by rw [Trail.leave_enter]; exact hr'), ht'⟩

theorem exists_runs_visitAll (h : RoleHierarchy) (roles : List String) (t : Trail) :
    ∃ t', h.Runs roles t (h.visitAll roles t.path t.marks).1.cycle? t' ∧
      ∀ marks, (h.visitAll roles t.path t.marks).1 = .clear marks → t' = ⟨t.path, marks⟩ := by
  obtain ⟨_, hv, -⟩ := h.visitAll_visits roles t.path t.marks
  exact hv.exists_runs

namespace Runs

variable {h : RoleHierarchy} {role : String} {roles : List String} {t t' s s' : Trail}
  {found found' : Option (List String)}

theorem unique (hr : h.Runs roles t found s) (hr' : h.Runs roles t found' s') :
    found = found' ∧ s = s' := by
  induction hr generalizing found' s' with
  | exhausted => cases hr'; exact ⟨rfl, rfl⟩
  | done hm _ ih =>
    cases hr' with
    | done _ hrest => exact ih hrest
    | closes _ hm' _ | lost hm' _ _ | descends _ hm' _ | returns hm' _ _ => grind
  | closes rest hm hclose =>
    cases hr' with
    | closes _ _ hclose' => exact ⟨hclose.symm.trans hclose', rfl⟩
    | done hm' _ | lost hm' _ _ | descends _ hm' _ | returns hm' _ _ => grind
  | lost hm hclose _ ih =>
    cases hr' with
    | lost _ _ hrest => exact ih hrest
    | done hm' _ | closes _ hm' _ | descends _ hm' _ | returns hm' _ _ => grind
  | descends rest hm _ ih =>
    cases hr' with
    | descends _ _ hchildren => exact ih hchildren
    | returns _ hchildren _ => cases (ih hchildren).1
    | done hm' _ | closes _ hm' _ | lost hm' _ _ => grind
  | returns hm _ _ ih ih' =>
    cases hr' with
    | descends _ _ hchildren => cases (ih hchildren).1
    | returns _ hchildren hrest =>
      obtain ⟨-, rfl⟩ := ih hchildren
      exact ih' hrest
    | done hm' _ | closes _ hm' _ | lost hm' _ _ => grind

/-- A run comes to what the walk does, and if it finds no cycle it leaves the path as it was. -/
theorem visitAll_eq (hr : h.Runs roles t found t') :
    (h.visitAll roles t.path t.marks).1 = t'.walk found ∧ (found = none → t'.path = t.path) := by
  obtain ⟨s, hs, hclear⟩ := h.exists_runs_visitAll roles t
  obtain ⟨rfl, rfl⟩ := hr.unique hs
  cases hw : (h.visitAll roles t.path t.marks).1 with
  | cycle cycle => exact ⟨rfl, nofun⟩
  | clear marks =>
    obtain rfl := hclear marks hw
    exact ⟨rfl, fun _ => rfl⟩

theorem achieves (hr : h.Runs roles t none t') (hc : h.Consistent t.path t.marks)
    (hl : h.LeadsTo t.path roles) : h.Achieves roles t.path t.marks (.clear t'.marks) := by
  obtain ⟨_, hv, -⟩ := h.visitAll_visits roles t.path t.marks
  rw [hr.visitAll_eq.1] at hv
  exact hv.achieves hc hl

/-- A mark may change, but no role loses it. -/
theorem isNone_of_isNone {r : String} (hr : h.Runs roles t found t')
    (hm : (t'.marks.get? r).isNone = true) : (t.marks.get? r).isNone = true := by
  induction hr with
  | exhausted => exact hm
  | done _ _ ih => exact ih hm
  | closes => exact hm
  | lost _ _ _ ih => exact ih hm
  | descends _ _ _ ih => exact isNone_of_isNone_insert (ih hm)
  | returns _ _ _ ih ih' => exact isNone_of_isNone_insert (ih (isNone_of_isNone_insert (ih' hm)))

end Runs

/-! ### What a visit leaves as it was -/

/-- A visit that finds no cycle leaves path and visited roles as they were, it is done with its
role, and what was done remains so. -/
structure Restores (role : String) (t t' : Trail) : Prop where
  path : t'.path = t.path
  visiting_iff : ∀ r, t'.marks.get? r = some .visiting ↔ t.marks.get? r = some .visiting
  done : t'.marks.get? role = some .done
  done_of_done : ∀ r, t.marks.get? r = some .done → t'.marks.get? r = some .done

section Walk

variable {h : RoleHierarchy} {role called : String} {roles : List String} {t t' s : Trail}

theorem Runs.consistent (hr : h.Runs roles t none t') (hc : h.Consistent t.path t.marks)
    (hl : h.LeadsTo t.path roles) : h.Consistent t'.path t'.marks := by
  rw [hr.visitAll_eq.2 rfl]
  exact (hr.achieves hc hl).1

theorem Runs.restores (hr : h.Runs [role] t none t') (hc : h.Consistent t.path t.marks)
    (hl : h.LeadsTo t.path [role]) : Restores role t t' := by
  obtain ⟨hc', hdone, hkeep⟩ := hr.achieves hc hl
  constructor
  case path => exact hr.visitAll_eq.2 rfl
  case visiting_iff =>
    intro r
    rw [hc'.visiting_iff r, hc.visiting_iff r]
  case done => exact hdone role List.mem_cons_self
  case done_of_done => exact hkeep

theorem LeadsTo.mono {path rest : List String} (hl : h.LeadsTo path roles)
    (hsub : ∀ r ∈ rest, r ∈ roles) : h.LeadsTo path rest :=
  fun parent hp r hr => hl parent hp r (hsub r hr)

/-- The state in which a visit starts is consistent, and an edge leads from the end of the path to
the role that is visited. -/
theorem Calls.consistent (hcalls : h.Calls roles t called s) (hc : h.Consistent t.path t.marks)
    (hl : h.LeadsTo t.path roles) :
    h.Consistent s.path s.marks ∧ h.LeadsTo s.path [called] := by
  induction hcalls with
  | here role rest t => exact ⟨hc, hl.mono (by simp)⟩
  | inside rest hm _ ih => exact ih (hc.descend hm hl) (h.leadsTo_children _ _)
  | @next role called rest t t' s hr _ ih =>
    have hrole : h.LeadsTo t.path [role] := hl.mono (by simp)
    have hpath := (hr.restores hc hrole).path
    exact ih (hr.consistent hc hrole) (hpath ▸ hl.tail)

theorem Calls.exists_mem (hcalls : h.Calls roles t called s) : ∃ role, role ∈ roles := by
  cases hcalls <;> exact ⟨_, List.mem_cons_self⟩

theorem Calls.isNone_of_isNone {r : String} (hcalls : h.Calls roles t called s)
    (hm : (s.marks.get? r).isNone = true) : (t.marks.get? r).isNone = true := by
  induction hcalls with
  | here => exact hm
  | inside _ _ _ ih => exact isNone_of_isNone_insert (ih hm)
  | next hr _ ih => exact hr.isNone_of_isNone (ih hm)

/-! ### Unmarked roles -/

/-- All roles of a hierarchy: the parents and their children. -/
def allRoles (h : RoleHierarchy) : Finset String :=
  (h.parents ++ h.parents.flatMap h.children).toFinset

/-- The roles that have no mark yet. -/
def unmarkedRoles (h : RoleHierarchy) (marks : KeyMap Mark) : Finset String :=
  h.allRoles.filter fun r => (marks.get? r).isNone

/-- A visit enters its role only if it has no mark, and the visits made from there start with fewer
roles that have none. -/
theorem Calls.card_unmarkedRoles_lt (hm : t.marks.get? role = none)
    (hcalls : h.Calls (h.children role) (t.enter role) called s) :
    (h.unmarkedRoles s.marks).card < (h.unmarkedRoles t.marks).card := by
  have hrole : role ∈ h.allRoles := by
    obtain ⟨child, he⟩ := hcalls.exists_mem
    simp [allRoles, mem_parents_of_edge he]
  have hmarked : s.marks.get? role ≠ none := by
    intro hnone
    have henter := hcalls.isNone_of_isNone (Option.isNone_iff_eq_none.mpr hnone)
    rw [Trail.enter, KeyMap.get?_insert, if_pos rfl] at henter
    cases henter
  apply Finset.card_lt_card
  rw [Finset.ssubset_iff_of_subset]
  · exact ⟨role, by simp [unmarkedRoles, hrole, hm], by simp [unmarkedRoles, hmarked]⟩
  · intro r hr
    obtain ⟨hall, hnone⟩ := Finset.mem_filter.mp hr
    exact Finset.mem_filter.mpr
      ⟨hall, isNone_of_isNone_insert (hcalls.isNone_of_isNone hnone)⟩

end Walk

/-- The search for a cycle is a run over the parents. -/
theorem findCycle?_runs (h : RoleHierarchy) : ∃ t, h.Runs h.parents .start h.findCycle? t := by
  obtain ⟨_, hv, -⟩ := h.visitAll_visits h.parents [] .empty
  obtain ⟨t, hr, -⟩ := hv.exists_runs
  rw [findCycle?_eq_cycle?]
  exact ⟨t, hr⟩

/-- The walk for cycles ends, and at each of its visits: the roles being visited are those on the
path, which follows edges and repeats none; what is done has done children only and reaches no
cycle. The visit ends, in one way, with what the walk from there comes to. If it finds no cycle, it
leaves path and visited roles as they were, its role done, and what was done remains so. If its role
is being visited, that role is found on the path and closes a cycle. If its role has no mark, all
visits made from there start with fewer roles that have none. -/
theorem visits_keep_bookkeeping (h : RoleHierarchy) :
    (∃ t, h.Runs h.parents .start h.findCycle? t) ∧
    ∀ role t, h.Calls h.parents .start role t →
      h.Consistent t.path t.marks ∧
      (∀ r, t.marks.get? r = some .done → ∀ target, h.Reaches r target → ¬h.OnCycle target) ∧
      (∃! result : Option (List String) × Trail, h.Runs [role] t result.1 result.2) ∧
      (∀ found t', h.Runs [role] t found t' →
        (h.visitAll [role] t.path t.marks).1 = t'.walk found) ∧
      (∀ t', h.Runs [role] t none t' → Restores role t t') ∧
      (t.marks.get? role = some .visiting →
        ∃ cycle, closeCycle? role t.path = some cycle ∧ h.IsCycle cycle ∧
          h.Runs [role] t (some cycle) t) ∧
      (t.marks.get? role = none →
        ∀ called s, h.Calls (h.children role) (t.enter role) called s →
          (h.unmarkedRoles s.marks).card < (h.unmarkedRoles t.marks).card) := by
  refine ⟨h.findCycle?_runs, ?_⟩
  intro role t hcalls
  obtain ⟨hc, hl⟩ := hcalls.consistent (.empty h) (by simp [LeadsTo, Trail.start])
  refine ⟨hc, ?_, ?_, fun found t' hr => hr.visitAll_eq.1, fun t' hr => hr.restores hc hl, ?_,
    fun hm called s hinside => hinside.card_unmarkedRoles_lt hm⟩
  · intro r hr target hreach
    exact hc.not_onCycle target (hc.done_of_reaches hr hreach)
  · obtain ⟨t', hr, -⟩ := h.exists_runs_visitAll [role] t
    refine ⟨(_, t'), hr, ?_⟩
    rintro ⟨found, t''⟩ hr'
    obtain ⟨rfl, rfl⟩ := hr'.unique hr
    rfl
  · intro hm
    obtain ⟨cycle, hclose, hcycle⟩ :=
      hc.isCycle_of_mem_path ((hc.visiting_iff role).mp hm) hl
    exact ⟨cycle, hclose, hcycle, .closes [] hm hclose⟩

end AccessPolicy.RoleHierarchy
