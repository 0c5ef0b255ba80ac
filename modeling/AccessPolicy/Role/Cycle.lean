import AccessPolicy.Role.Hierarchy

/-! Cycles of a role hierarchy. A depth-first walk starts at each parent in turn and marks the roles
on its way: a role is being visited while it lies on the path from the start, and done after all its
children. A child that is being visited closes a cycle. -/

namespace AccessPolicy.RoleHierarchy

/-- How far the walk has come with a role. -/
inductive Mark where
  | visiting
  | done
deriving DecidableEq, Repr

/-- The outcome of a walk: a cycle, or the marks that it leaves behind. -/
inductive Walk where
  | cycle (roles : List String)
  | clear (marks : KeyMap Mark)

/-- The parents that no walk has met yet. -/
def countUnmarked (h : RoleHierarchy) (marks : KeyMap Mark) : Nat :=
  h.parents.countP fun p => (marks.get? p).isNone

theorem isNone_of_isNone_insert {marks : KeyMap Mark} {role p : String} {mark : Mark}
    (hp : ((marks.insert role mark).get? p).isNone = true) : (marks.get? p).isNone = true := by
  rw [KeyMap.get?_insert] at hp
  split at hp
  · cases hp
  · exact hp

theorem countUnmarked_insert_le (h : RoleHierarchy) (marks : KeyMap Mark) (role : String)
    (mark : Mark) : h.countUnmarked (marks.insert role mark) ≤ h.countUnmarked marks :=
  List.countP_mono_left fun _ _ => isNone_of_isNone_insert

theorem countUnmarked_insert_lt {h : RoleHierarchy} {marks : KeyMap Mark} {role : String}
    {mark : Mark} (hp : role ∈ h.parents) (hm : marks.get? role = none) :
    h.countUnmarked (marks.insert role mark) < h.countUnmarked marks :=
  countP_lt_countP (fun _ => isNone_of_isNone_insert) hp (by simp [KeyMap.get?_insert])
    (by simp [hm])

/-- The part of `path` from `role` on, closed by `role` itself, if `role` lies on the path. -/
def closeCycle? (role : String) (path : List String) : Option (List String) :=
  if role ∈ path then some (path.dropWhile (· != role) ++ [role]) else none

/-- Visits `roles` in turn, each with all that can be reached from it, where `path` leads to them
and `marks` tells what has been visited before. -/
def visitAll (h : RoleHierarchy) (roles path : List String) (marks : KeyMap Mark) :
    { w : Walk // ∀ m, w = .clear m → h.countUnmarked m ≤ h.countUnmarked marks } :=
  match roles with
  | [] => ⟨.clear marks, fun m hm => by cases hm; exact Nat.le_refl _⟩
  | role :: rest =>
    match hm : marks.get? role with
    | some .done => h.visitAll rest path marks
    | some .visiting =>
      match closeCycle? role path with
      | some roles => ⟨.cycle roles, fun _ hw => nomatch hw⟩
      | none => h.visitAll rest path marks
    | none =>
      match h.visitAll (h.children role) (path ++ [role]) (marks.insert role .visiting) with
      | ⟨.cycle roles, _⟩ => ⟨.cycle roles, fun _ hw => nomatch hw⟩
      | ⟨.clear marks', hle⟩ =>
        have hle : h.countUnmarked (marks'.insert role .done) ≤ h.countUnmarked marks :=
          Nat.le_trans (h.countUnmarked_insert_le _ _ _)
            (Nat.le_trans (hle _ rfl) (h.countUnmarked_insert_le _ _ _))
        have ⟨w, hw⟩ := h.visitAll rest path (marks'.insert role .done)
        ⟨w, fun m hm => Nat.le_trans (hw m hm) hle⟩
termination_by (h.countUnmarked marks, roles.length)
decreasing_by
  · exact Prod.Lex.right _ (Nat.lt_succ_self _)
  · exact Prod.Lex.right _ (Nat.lt_succ_self _)
  · by_cases hp : role ∈ h.parents
    · exact Prod.Lex.left _ _ (countUnmarked_insert_lt hp hm)
    · rw [children_eq_nil hp]
      rcases Nat.lt_or_eq_of_le (h.countUnmarked_insert_le marks role .visiting) with hlt | heq
      · exact Prod.Lex.left _ _ hlt
      · rw [heq]
        exact Prod.Lex.right _ (Nat.succ_pos _)
  · rcases Nat.lt_or_eq_of_le hle with hlt | heq
    · exact Prod.Lex.left _ _ hlt
    · rw [heq]
      exact Prod.Lex.right _ (Nat.lt_succ_self _)

/-- The first cycle of a walk from the parents in increasing order, with its first role repeated at
the end. -/
def findCycle? (h : RoleHierarchy) : Option (List String) :=
  match (h.visitAll h.parents [] .empty).1 with
  | .cycle roles => some roles
  | .clear _ => none

end AccessPolicy.RoleHierarchy
