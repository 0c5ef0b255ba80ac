import AccessPolicy.File
import Mathlib.Logic.Basic

/-! The extensions of paths. A path has the extension of the last of its components that names a
file, whatever directories lead to it and however many slashes and single dots follow. A name has an
extension if it has a dot that is not its first character; the extension has no dots in it. -/

namespace AccessPolicy

/-- A component of a path that names neither the directory itself nor the one above it. -/
structure IsFileName (name : List Char) : Prop where
  noSlash : '/' ∉ name
  ne_nil : name ≠ []
  ne_dot : name ≠ ['.']
  ne_dots : name ≠ ['.', '.']

variable {name : List Char} {path ext : String}

/-! ### The component that names the file -/

/-- The components of a path that name something other than the directory they are in. -/
def namedParts (path : List Char) : List (List Char) :=
  (path.splitOn '/').filter fun part => part ≠ [] ∧ part ≠ ['.']

theorem fileName?_eq (path : String) :
    fileName? path = (namedParts path.toList).getLast?.filter (· ≠ ['.', '.']) :=
  rfl

theorem namedParts_append_slash (front back : List Char) :
    namedParts (front ++ '/' :: back) = namedParts front ++ namedParts back := by
  rw [namedParts, List.splitOn_append_cons_self, List.filter_append, namedParts, namedParts]

theorem namedParts_of_isFileName (hname : IsFileName name) : namedParts name = [name] := by
  rw [namedParts, List.splitOn_eq_singleton hname.noSlash]
  simp [hname.ne_nil, hname.ne_dot]

theorem fileName?_of_isFileName (hname : IsFileName name) :
    fileName? (String.ofList name) = some name := by
  rw [fileName?_eq, String.toList_ofList, namedParts_of_isFileName hname]
  simp [hname.ne_dots]

/-- The directories that lead to a file make no difference to its name. -/
theorem fileName?_in_directory (dir : String) (hname : IsFileName name) :
    fileName? (dir ++ "/" ++ String.ofList name) = some name := by
  have hsplit : (dir ++ "/" ++ String.ofList name).toList = dir.toList ++ '/' :: name := by simp
  rw [fileName?_eq, hsplit, namedParts_append_slash, namedParts_of_isFileName hname,
    List.getLast?_concat]
  simp [hname.ne_dots]

/-- Neither does a slash after the name, or a dot that stands for the directory itself. -/
theorem fileName?_append_slash (path : String) : fileName? (path ++ "/") = fileName? path := by
  have hsplit : (path ++ "/").toList = path.toList ++ '/' :: [] := by simp
  have hnone : namedParts [] = [] := rfl
  rw [fileName?_eq, hsplit, namedParts_append_slash, hnone, List.append_nil, fileName?_eq]

theorem fileName?_append_dot (path : String) : fileName? (path ++ "/.") = fileName? path := by
  have hsplit : (path ++ "/.").toList = path.toList ++ '/' :: ['.'] := by simp
  have hnone : namedParts ['.'] = [] := by decide
  rw [fileName?_eq, hsplit, namedParts_append_slash, hnone, List.append_nil, fileName?_eq]

/-! ### What follows its last dot -/

theorem splitOn_eq_singleton_nil_iff {c : Char} {s : List Char} :
    s.splitOn c = [[]] ↔ s = [] := by
  constructor
  · intro hsplit
    have hjoin : [c].intercalate (s.splitOn c) = s := List.intercalate_splitOn c
    rw [hsplit] at hjoin
    exact hjoin.symm
  · rintro rfl
    exact List.splitOn_nil c

theorem exists_last_of_mem {c : Char} {s : List Char} (h : c ∈ s) :
    ∃ before after, s = before ++ c :: after ∧ c ∉ after := by
  obtain ⟨after, before, hs, hafter⟩ := List.eq_append_cons_of_mem (List.mem_reverse.mpr h)
  refine ⟨before.reverse, after.reverse, ?_, fun hmem => hafter (List.mem_reverse.mp hmem)⟩
  rw [← List.reverse_reverse s, hs]
  simp

/-- The extension is what follows the last dot of the name, if something stands before that. -/
theorem extension?_of_dot {stem after : List Char}
    (hname : fileName? path = some (stem ++ '.' :: after)) (hafter : '.' ∉ after) :
    extension? path = if stem = [] then none else some (String.ofList after) := by
  have hsplit : ((stem ++ '.' :: after).splitOn '.').reverse =
      after :: (stem.splitOn '.').reverse := by
    rw [List.splitOn_append_cons_self, List.splitOn_eq_singleton hafter, List.reverse_concat]
  have hstem : (stem.splitOn '.').reverse = [[]] ↔ stem = [] := by
    rw [List.reverse_eq_iff, List.reverse_singleton, splitOn_eq_singleton_nil_iff]
  rw [extension?, hname]
  simp only [hsplit]
  cases hbefore : (stem.splitOn '.').reverse with
  | nil => exact absurd (List.reverse_eq_nil_iff.mp hbefore) (List.splitOn_ne_nil '.' stem)
  | cons part parts => exact if_congr (hbefore ▸ hstem) rfl rfl

theorem extension?_of_no_dot (hname : fileName? path = some name) (hdot : '.' ∉ name) :
    extension? path = none := by
  rw [extension?, hname]
  simp only [List.splitOn_eq_singleton hdot, List.reverse_singleton]

/-- A path has an extension if its name has a dot that is not its first character. -/
theorem extension?_eq_some_iff : extension? path = some ext ↔
    ∃ stem, stem ≠ [] ∧ '.' ∉ ext.toList ∧ fileName? path = some (stem ++ '.' :: ext.toList) := by
  constructor
  · intro hext
    cases hname : fileName? path with
    | none => simp [extension?, hname] at hext
    | some name =>
      by_cases hdot : '.' ∈ name
      · obtain ⟨stem, after, rfl, hafter⟩ := exists_last_of_mem hdot
        rw [extension?_of_dot hname hafter, Option.ite_none_left_eq_some] at hext
        obtain ⟨hstem, hext⟩ := hext
        obtain rfl : String.ofList after = ext := Option.some.inj hext
        exact ⟨stem, hstem, by rwa [String.toList_ofList], by rw [String.toList_ofList]⟩
      · rw [extension?_of_no_dot hname hdot] at hext
        cases hext
  · rintro ⟨stem, hstem, hdot, hname⟩
    rw [extension?_of_dot hname hdot, if_neg hstem, String.ofList_toList]

/-- A file in a directory has the extension that its name has. -/
theorem extension?_in_directory (dir : String) {stem : List Char} (hstem : stem ≠ [])
    (hdot : '.' ∉ ext.toList) (hname : IsFileName (stem ++ '.' :: ext.toList)) :
    extension? (dir ++ "/" ++ String.ofList (stem ++ '.' :: ext.toList)) = some ext :=
  extension?_eq_some_iff.mpr ⟨stem, hstem, hdot, fileName?_in_directory dir hname⟩

/-- So has a file in the working directory. -/
theorem extension?_of_isFileName {stem : List Char} (hstem : stem ≠ []) (hdot : '.' ∉ ext.toList)
    (hname : IsFileName (stem ++ '.' :: ext.toList)) :
    extension? (String.ofList (stem ++ '.' :: ext.toList)) = some ext :=
  extension?_eq_some_iff.mpr ⟨stem, hstem, hdot, fileName?_of_isFileName hname⟩

example : extension? "etc/warden.d/policy.toml/." = some "toml" := by decide +kernel

example : extension? "warden.toml/.toml" = none := by decide +kernel

end AccessPolicy
