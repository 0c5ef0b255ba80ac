/-! What reading leaves of a text. The types carry the length, so that a reader that goes on with
what is left ends. -/

namespace AccessPolicy

/-- What is left of a text after a step that takes something from it. -/
abbrev Rest (s : List Char) : Type := { r : List Char // r.length < s.length }

/-- What is left of a text, which may be all of it. -/
abbrev Tail (s : List Char) : Type := { r : List Char // r.length ≤ s.length }

theorem length_le_self (s : List Char) : s.length ≤ s.length := Nat.le_refl _

theorem length_lt_succ (r : List Char) : r.length < r.length + 1 := Nat.lt_succ_self _

theorem length_le_succ (r : List Char) : r.length ≤ r.length + 1 := Nat.le_succ _

/-- All of a text is left. -/
def Tail.all (s : List Char) : Tail s := ⟨s, length_le_self s⟩

/-- What is left after a step on a rest. -/
def Rest.after {s t : List Char} (r : Rest t) (h : t.length ≤ s.length) : Rest s :=
  ⟨r.1, Nat.lt_of_lt_of_le r.2 h⟩

/-- What is left after a step that may have taken nothing from a rest. -/
def Tail.after {s t : List Char} (r : Tail t) (h : t.length < s.length) : Rest s :=
  ⟨r.1, Nat.lt_of_le_of_lt r.2 h⟩

/-- What is left after two steps that may both have taken nothing. -/
def Tail.within {s t : List Char} (r : Tail t) (h : t.length ≤ s.length) : Tail s :=
  ⟨r.1, Nat.le_trans r.2 h⟩

end AccessPolicy
