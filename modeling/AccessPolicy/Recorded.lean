/-! Values that come with notes: what was written down on the way to the value, oldest first. The
notes of a computation in two steps are those of the first step and then those of the second. -/

namespace AccessPolicy

/-- A value with the notes written on the way to it, oldest first. -/
structure Recorded (ν α : Type) where
  value : α
  notes : List ν
deriving DecidableEq, Repr

namespace Recorded

variable {ν α β : Type}

instance : Monad (Recorded ν) where
  pure value := ⟨value, []⟩
  bind x f := ⟨(f x.value).value, x.notes ++ (f x.value).notes⟩

@[ext] theorem ext {x y : Recorded ν α} (hv : x.value = y.value) (hn : x.notes = y.notes) :
    x = y := by
  cases x; cases y; cases hv; cases hn; rfl

@[simp] theorem value_pure (a : α) : (pure a : Recorded ν α).value = a := rfl

@[simp] theorem notes_pure (a : α) : (pure a : Recorded ν α).notes = [] := rfl

@[simp] theorem value_bind (x : Recorded ν α) (f : α → Recorded ν β) :
    (x >>= f).value = (f x.value).value := rfl

@[simp] theorem notes_bind (x : Recorded ν α) (f : α → Recorded ν β) :
    (x >>= f).notes = x.notes ++ (f x.value).notes := rfl

@[simp] theorem value_map (f : α → β) (x : Recorded ν α) : (f <$> x).value = f x.value := rfl

@[simp] theorem notes_map (f : α → β) (x : Recorded ν α) : (f <$> x).notes = x.notes :=
  List.append_nil _

instance : LawfulMonad (Recorded ν) := LawfulMonad.mk' (Recorded ν)
  (fun _ => ext rfl (List.append_nil _))
  (fun _ _ => ext rfl (List.nil_append _))
  (fun _ _ _ => ext rfl (List.append_assoc _ _ _))

/-- Writes one note. -/
def note (n : ν) : Recorded ν Unit := ⟨(), [n]⟩

@[simp] theorem notes_note (n : ν) : (note n).notes = [n] := rfl

end Recorded

end AccessPolicy
