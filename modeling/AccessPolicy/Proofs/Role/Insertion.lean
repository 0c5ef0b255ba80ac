import AccessPolicy.Proofs.Role.Reachability

/-! Adding roles below a parent. A path may follow the new edges many times and go around cycles
that they close, but it need not: what stands before the last new edge leads to the parent by old
edges already, so one new edge is enough. An insertion therefore takes no implication away, and adds
only those that pass through the parent. -/

namespace AccessPolicy.RoleHierarchy

variable {h : RoleHierarchy} {parent role target : String} {added : List String}

theorem children_insert (h : RoleHierarchy) (parent : String) (added : List String)
    (role : String) :
    (h.insert parent added).children role =
      if role = parent then h.children parent ++ added else h.children role := by
  simp only [children, insert, KeyMap.get?_upsert]
  split <;> rfl

/-- Children that are inserted add edges from their parent. -/
theorem edge_insert_iff :
    (h.insert parent added).Edge role target ↔
      h.Edge role target ∨ role = parent ∧ target ∈ added := by
  rw [Edge, children_insert]
  by_cases hp : role = parent
  · subst hp
    simp [Edge]
  · simp [Edge, hp]

theorem Reaches.insert (hr : h.Reaches role target) (parent : String) (added : List String) :
    (h.insert parent added).Reaches role target := by
  have hle : h.Edge ≤ (h.insert parent added).Edge := fun _ _ he => edge_insert_iff.mpr (.inl he)
  exact Relation.ReflTransGen.mono hle role target hr

/-- A path of the new hierarchy is one of the old, or leads by old edges to the parent and on from
an added role. -/
theorem reaches_insert_iff :
    (h.insert parent added).Reaches role target ↔
      h.Reaches role target ∨ h.Reaches role parent ∧ ∃ child ∈ added, h.Reaches child target := by
  constructor
  · intro hr
    induction hr with
    | refl => exact .inl .refl
    | @tail last next hr he ih =>
      rcases edge_insert_iff.mp he with hold | ⟨rfl, hadded⟩
      · rcases ih with hlast | ⟨hparent, child, hchild, hlast⟩
        · exact .inl (hlast.tail hold)
        · exact .inr ⟨hparent, child, hchild, hlast.tail hold⟩
      · -- a new edge ends the path, so the edges before it are needed up to the parent only
        have hparent : h.Reaches role last := by
          rcases ih with hlast | ⟨hparent, -⟩
          · exact hlast
          · exact hparent
        exact .inr ⟨hparent, next, hadded, .refl⟩
  · rintro (hr | ⟨hparent, child, hchild, hr⟩)
    · exact hr.insert parent added
    · have hnew : (h.insert parent added).Edge parent child :=
        edge_insert_iff.mpr (.inr ⟨rfl, hchild⟩)
      exact (hparent.insert parent added).trans (.head hnew (hr.insert parent added))

/-- After an insertion a role implies what it implied before and, if it implied the parent, what the
added roles implied before. -/
theorem implies_insert_iff (h : RoleHierarchy) (parent : String) (added : List String)
    (role target : String) :
    (h.insert parent added).implies role target = true ↔
      h.implies role target = true ∨
        h.implies role parent = true ∧ ∃ child ∈ added, h.implies child target = true := by
  simp only [implies_iff_reaches]
  exact reaches_insert_iff

end AccessPolicy.RoleHierarchy
