import AccessPolicy.Text.Position

/-! The first colon of a text: finding it gives the length in bytes of what stands before it, and
cutting there, or splitting in one pass, gives the parts on both sides of it. -/

namespace AccessPolicy.Text

/-- The length of characters in bytes. -/
def byteLength : List Char → Nat
  | [] => 0
  | c :: cs => c.utf8Size + byteLength cs

@[simp] theorem byteLength_nil : byteLength [] = 0 := rfl

@[simp] theorem byteLength_cons (c : Char) (cs : List Char) :
    byteLength (c :: cs) = c.utf8Size + byteLength cs := rfl

theorem colon?_of_not_mem {cs : List Char} (h : ':' ∉ cs) : colon? cs = none := by
  induction cs with
  | nil => rfl
  | cons c cs ih =>
    have hc := List.ne_of_not_mem_cons h
    have hcs := List.not_mem_of_not_mem_cons h
    rw [colon?, if_neg (Ne.symm hc), ih hcs]
    rfl

/-- The first colon is where it stands in bytes. -/
theorem colon?_append {before : List Char} (h : ':' ∉ before) (after : List Char) :
    colon? (before ++ ':' :: after) = some (byteLength before) := by
  induction before with
  | nil => rfl
  | cons c before ih =>
    have hc := List.ne_of_not_mem_cons h
    have hbefore := List.not_mem_of_not_mem_cons h
    rw [List.cons_append, colon?, if_neg (Ne.symm hc), ih hbefore, Option.map_some,
      byteLength_cons, Nat.add_comm]

theorem cut?_append (before after : List Char) :
    cut? (before ++ after) (byteLength before) = some (before, after) := by
  induction before with
  | nil =>
    rw [List.nil_append, byteLength_nil]
    unfold cut?
    rfl
  | cons c before ih =>
    have hpos := c.utf8Size_pos
    obtain ⟨n, hn⟩ : ∃ n, byteLength (c :: before) = n + 1 :=
      ⟨byteLength (c :: before) - 1, by rw [byteLength_cons]; omega⟩
    have hrest : n + 1 - c.utf8Size = byteLength before := by
      rw [← hn, byteLength_cons, Nat.add_sub_cancel_left]
    rw [hn, List.cons_append, cut?, if_pos (by rw [← hn, byteLength_cons]; omega), hrest, ih]
    rfl

theorem splitColon?_of_not_mem {cs : List Char} (h : ':' ∉ cs) : splitColon? cs = none := by
  induction cs with
  | nil => rfl
  | cons c cs ih =>
    have hc := List.ne_of_not_mem_cons h
    have hcs := List.not_mem_of_not_mem_cons h
    rw [splitColon?, if_neg (Ne.symm hc), ih hcs]
    rfl

theorem splitColon?_append {before : List Char} (h : ':' ∉ before) (after : List Char) :
    splitColon? (before ++ ':' :: after) = some (before, after) := by
  induction before with
  | nil => rfl
  | cons c before ih =>
    have hc := List.ne_of_not_mem_cons h
    have hbefore := List.not_mem_of_not_mem_cons h
    rw [List.cons_append, splitColon?, if_neg (Ne.symm hc), ih hbefore]
    rfl

theorem toList_append_colon (before after : String) :
    (before ++ ":" ++ after).toList = before.toList ++ ':' :: after.toList := by
  simp

/-- A text with a colon in it has a first one. -/
theorem exists_eq_append_colon {text : String} (h : ':' ∈ text.toList) :
    ∃ before after : String, ':' ∉ before.toList ∧ text = before ++ ":" ++ after := by
  obtain ⟨before, after, heq, hbefore⟩ := List.eq_append_cons_of_mem h
  refine ⟨String.ofList before, String.ofList after, by simpa using hbefore, ?_⟩
  apply String.toList_inj.mp
  rw [toList_append_colon, String.toList_ofList, String.toList_ofList, heq]

end AccessPolicy.Text
