import Mathlib.Algebra.GroupWithZero.Nat

/-! Texts in lines. A text has one line more than line breaks, and what joins texts has the lines of
all of them. -/

namespace AccessPolicy

namespace Text

/-- The lines of a text: what stands between its line breaks. Every `\n` is a break, so after one at
the end comes an empty line, and a carriage return before one stays in its line. Reading a text line
by line may drop either; this does not. -/
def lines (text : String) : List String := (text.toList.splitOn '\n').map String.ofList

/-- How many line breaks a text has. -/
def lineBreaks (text : String) : Nat := text.toList.count '\n'

theorem lineBreaks_append (a b : String) : lineBreaks (a ++ b) = lineBreaks a + lineBreaks b := by
  rw [lineBreaks, String.toList_append, List.count_append, lineBreaks, lineBreaks]

theorem lineBreaks_eq_zero_iff {text : String} : lineBreaks text = 0 ↔ '\n' ∉ text.toList :=
  List.count_eq_zero

theorem lines_of_not_mem {text : String} (h : '\n' ∉ text.toList) : lines text = [text] := by
  rw [lines, List.splitOn_eq_singleton h, List.map_singleton, String.ofList_toList]

/-- A line break ends a line and starts another. -/
theorem lines_append_lineBreak (a b : String) : lines (a ++ "\n" ++ b) = lines a ++ lines b := by
  have happend : (a ++ "\n" ++ b).toList = a.toList ++ '\n' :: b.toList := by simp
  rw [lines, happend, List.splitOn_append_cons_self, List.map_append, lines, lines]

/-- There is one line more than line breaks. -/
theorem length_lines (text : String) : (lines text).length = lineBreaks text + 1 := by
  rw [lines, List.length_map, lineBreaks]
  induction text.toList with
  | nil => rfl
  | cons c cs ih =>
    rw [List.splitOn_cons_eq_if_modifyHead, List.count_cons]
    split
    · rw [List.length_cons, ih]
    · rw [List.length_modifyHead, ih]

/-- Texts that are joined by line breaks have the lines of all of them. -/
theorem lines_intercalate {texts : List String} (hne : texts ≠ []) :
    lines ("\n".intercalate texts) = texts.flatMap lines := by
  induction texts with
  | nil => exact absurd rfl hne
  | cons text rest ih =>
    cases rest with
    | nil => simp
    | cons next rest =>
      rw [List.flatMap_cons, String.intercalate_cons_cons, lines_append_lineBreak,
        ih (List.cons_ne_nil _ _)]

theorem length_flatMap_lines (texts : List String) :
    (texts.flatMap lines).length = texts.length + (texts.map lineBreaks).sum := by
  induction texts with
  | nil => rfl
  | cons text rest ih =>
    rw [List.flatMap_cons, List.length_append, ih, length_lines, List.length_cons, List.map_cons,
      List.sum_cons]
    omega

theorem flatMap_lines_of_not_mem {texts : List String} (h : ∀ text ∈ texts, '\n' ∉ text.toList) :
    texts.flatMap lines = texts := by
  induction texts with
  | nil => rfl
  | cons text rest ih =>
    rw [List.flatMap_cons, lines_of_not_mem (h text List.mem_cons_self),
      ih fun t ht => h t (List.mem_cons_of_mem _ ht)]
    rfl

end Text

end AccessPolicy
