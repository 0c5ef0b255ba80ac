import AccessPolicy.Proofs.Toml.Quoted
import AccessPolicy.Toml.Item

/-! TOML keys and arrays of strings as they are written. The names of a key stand bare where they
can and quoted otherwise, with dots between them; the items of an array are quoted, with a comma and
a space between them. Reading gives the names and the items back. -/

namespace AccessPolicy.Toml

/-! ### Blanks -/

/-- A character that starts neither a blank nor a comment. -/
structure StartsItem (c : Char) : Prop where
  not_space : isSpace c = false
  ne_lineFeed : c ≠ '\n'
  ne_carriageReturn : c ≠ '\r'
  ne_hash : c ≠ '#'

theorem skipSpace_eq {s r : List Char} (h : s.dropWhile isSpace = r) :
    ∃ hle, skipSpace s = ⟨r, hle⟩ := by
  subst h
  exact ⟨_, rfl⟩

theorem StartsItem.dropWhile {c : Char} (hc : StartsItem c) (r : List Char) :
    (c :: r).dropWhile isSpace = c :: r :=
  List.dropWhile_cons_of_neg (by simp [hc.not_space])

theorem StartsItem.takeNewline? {c : Char} (hc : StartsItem c) (r : List Char) :
    takeNewline? (c :: r) = none := by
  rw [Toml.takeNewline?]
  · rintro _ ⟨⟩
    exact hc.ne_lineFeed rfl
  · rintro _ ⟨⟩
    exact hc.ne_carriageReturn rfl

/-- Spaces before an item are passed over, and the item is not. -/
theorem leaves_skipBlank? {s r : List Char} {c : Char} (hs : s.dropWhile isSpace = c :: r)
    (hc : StartsItem c) : leaves (skipBlank? s) = some (c :: r) := by
  obtain ⟨hle, hskip⟩ := skipSpace_eq hs
  rw [skipBlank?, hskip]
  simp only [if_neg hc.ne_hash]
  rw [leaves_eq_some_iff]
  refine ⟨hle, ?_⟩
  split
  · next heq => rw [hc.takeNewline?] at heq; cases heq
  · rfl

/-! ### Keys -/

/-- A name in a key, bare if it can be. -/
def writtenName (name : String) : List Char :=
  if name ≠ "" ∧ name.toList.all isBare then name.toList else quoted name

/-- The names on the way to the name of a key, each with a dot after it. -/
def writtenPath (path : List String) : List Char :=
  path.flatMap fun name => writtenName name ++ ['.']

/-- The names of a key with dots between them. -/
def Key.print (key : Key) : List Char := writtenPath key.path ++ writtenName key.name

/-- What may follow a key. -/
structure EndsKey (t : List Char) : Prop where
  not_bare : ∀ c ∈ t.head?, isBare c = false
  ne_dot : ∀ c ∈ (t.dropWhile isSpace).head?, c ≠ '.'

/-- A character that starts a written name. -/
def StartsName (c : Char) : Prop := c = '"' ∨ isBare c = true

theorem StartsName.ne {c d : Char} (hc : StartsName c) (hd : d ≠ '"' ∧ isBare d = false) :
    c ≠ d := by
  rintro rfl
  rcases hc with hquote | hbare
  · exact hd.1 hquote
  · rw [hd.2] at hbare
    cases hbare

theorem StartsName.startsItem {c : Char} (hc : StartsName c) : StartsItem c where
  not_space := by
    simp [isSpace, hc.ne (d := ' ') (by decide), hc.ne (d := '\t') (by decide)]
  ne_lineFeed := hc.ne (by decide)
  ne_carriageReturn := hc.ne (by decide)
  ne_hash := hc.ne (by decide)

theorem exists_writtenName (name : String) : ∃ c r, writtenName name = c :: r ∧ StartsName c := by
  unfold writtenName
  split
  · next h =>
    obtain ⟨c, r, hcons⟩ : ∃ c r, name.toList = c :: r :=
      List.exists_cons_of_ne_nil (mt String.toList_eq_nil_iff.mp h.1)
    have hall := h.2
    rw [hcons, List.all_cons, Bool.and_eq_true] at hall
    exact ⟨c, r, hcons, .inr hall.1⟩
  · exact ⟨'"', _, rfl, .inl rfl⟩

theorem outcome_takeName_bare {cs t : List Char} (hcs : cs ≠ []) (hall : cs.all isBare = true)
    (ht : ∀ c ∈ t.head?, isBare c = false) :
    outcome (takeName (cs ++ t)) = some (String.ofList cs, t) := by
  obtain ⟨c, r, rfl⟩ := List.exists_cons_of_ne_nil hcs
  rw [List.all_cons, Bool.and_eq_true, List.all_eq_true] at hall
  obtain ⟨hc, hr⟩ := hall
  have htake : t.takeWhile isBare = [] := by
    cases t with
    | nil => rfl
    | cons d t => exact List.takeWhile_cons_of_neg (by simp [ht d rfl])
  have hdrop : t.dropWhile isBare = t := by
    cases t with
    | nil => rfl
    | cons d t => exact List.dropWhile_cons_of_neg (by simp [ht d rfl])
  rw [List.cons_append, takeName]
  · rw [if_pos hc]
    simp [outcome, List.takeWhile_append_of_pos hr, List.dropWhile_append_of_pos hr, htake, hdrop]
  · rintro rfl
    cases hc
  · rintro rfl
    cases hc

/-- A name is read back, in quotes if it needs them. -/
theorem outcome_takeName (name : String) {t : List Char} (ht : ∀ c ∈ t.head?, isBare c = false) :
    outcome (takeName (writtenName name ++ t)) = some (name, t) := by
  by_cases h : name ≠ "" ∧ name.toList.all isBare
  · rw [writtenName, if_pos h, outcome_takeName_bare (mt String.toList_eq_nil_iff.mp h.1) h.2 ht,
      String.ofList_toList]
  · rw [writtenName, if_neg h, quoted_append, takeName]
    exact outcome_finish (outcome_takeBasic_written name.toList t) _

theorem writtenPath_cons_append (name : String) (path : List String) (t : List Char) :
    writtenPath (name :: path) ++ t = writtenName name ++ '.' :: (writtenPath path ++ t) := by
  simp [writtenPath]

theorem Key.exists_print (key : Key) : ∃ c r, key.print = c :: r ∧ StartsName c := by
  obtain ⟨path, name⟩ := key
  cases path with
  | nil => exact exists_writtenName name
  | cons first path =>
    obtain ⟨c, r, hcons, hc⟩ := exists_writtenName first
    refine ⟨c, r ++ '.' :: (writtenPath path ++ writtenName name), ?_, hc⟩
    rw [print, writtenPath_cons_append, hcons, List.cons_append]

theorem Key.dropWhile_print (key : Key) (t : List Char) :
    (key.print ++ t).dropWhile isSpace = key.print ++ t := by
  obtain ⟨c, r, hcons, hc⟩ := key.exists_print
  rw [hcons, List.cons_append, hc.startsItem.dropWhile]

theorem outcome_takeNames_last {s r : List Char} {name : String}
    (hname : outcome (takeName s) = some (name, r))
    (hdot : ∀ c ∈ (r.dropWhile isSpace).head?, c ≠ '.') :
    outcome (takeNames s) = some ([name], r.dropWhile isSpace) := by
  obtain ⟨hlt, hname⟩ := outcome_eq_some_iff.mp hname
  obtain ⟨hle, hskip⟩ := skipSpace_eq (s := r) rfl
  generalize r.dropWhile isSpace = rest at hle hskip hdot
  rw [takeNames, hname]
  simp only [Option.bind_eq_bind, Option.bind_some, hskip]
  cases rest with
  | nil => rfl
  | cons c rest =>
    simp only [if_neg (hdot c rfl)]
    rfl

theorem outcome_takeNames_dot {s r : List Char} {name : String}
    (hname : outcome (takeName s) = some (name, '.' :: r)) :
    outcome (takeNames s) =
      (outcome (takeNames (r.dropWhile isSpace))).map fun p => (name :: p.1, p.2) := by
  obtain ⟨hlt, hname⟩ := outcome_eq_some_iff.mp hname
  obtain ⟨hle, hskip⟩ := skipSpace_eq (s := '.' :: r) (r := '.' :: r) rfl
  rw [takeNames, hname]
  simp only [Option.bind_eq_bind, Option.bind_some, hskip, if_pos]
  show outcome ((takeNames (r.dropWhile isSpace)).bind _) = _
  cases takeNames (r.dropWhile isSpace) <;> rfl

/-- The names are read back, and the spaces after the last one are passed over. -/
theorem outcome_takeNames_print (key : Key) {t : List Char} (ht : EndsKey t) :
    outcome (takeNames (key.print ++ t)) =
      some (key.path ++ [key.name], t.dropWhile isSpace) := by
  obtain ⟨path, name⟩ := key
  induction path with
  | nil => exact outcome_takeNames_last (outcome_takeName name ht.not_bare) ht.ne_dot
  | cons first path ih =>
    have hdot : ∀ c ∈ ('.' :: (Key.print ⟨path, name⟩ ++ t)).head?, isBare c = false := by
      rintro _ ⟨⟩
      rfl
    have hfirst := outcome_takeNames_dot (outcome_takeName first hdot)
    rw [Key.dropWhile_print, ih] at hfirst
    rw [Key.print, writtenPath_cons_append, List.append_assoc, List.cons_append]
    exact hfirst

/-- A key that is no longer than keys may be is read back. -/
theorem outcome_takeKey (key : Key) (hkey : key.path.length ≤ maxPathLength) {t : List Char}
    (ht : EndsKey t) : outcome (takeKey (key.print ++ t)) = some (key, t.dropWhile isSpace) := by
  obtain ⟨hlt, hnames⟩ := outcome_eq_some_iff.mp (outcome_takeNames_print key ht)
  have hlength : (key.path ++ [key.name]).length ≤ maxPathLength + 1 := by
    rw [List.length_append]
    exact Nat.succ_le_succ hkey
  rw [takeKey, hnames]
  simp only [Option.bind_eq_bind, Option.bind_some, List.getLast?_concat, if_pos hlength,
    List.dropLast_concat]
  rfl

/-! ### Arrays of strings -/

/-- The items of an array after the first one. -/
def writtenMore (ss : List String) : List Char := ss.flatMap fun s => ',' :: ' ' :: quoted s

/-- Strings in brackets, with commas between them. -/
def writtenStrings : List String → List Char
  | [] => ['[', ']']
  | s :: ss => '[' :: quoted s ++ writtenMore ss ++ [']']

/-- The value that stands for strings. -/
def ofStrings (ss : List String) : Toml := .array (ss.map .string)

theorem outcome_takeValue_quote (room : Nat) (r : List Char) :
    outcome (takeValue room ('"' :: r)) =
      (outcome (takeQuoted ('"' :: r))).map fun p => (.string p.1, p.2) := by
  rw [takeValue]
  · rw [if_pos (.inl rfl)]
    cases takeQuoted ('"' :: r) <;> rfl
  all_goals decide

theorem outcome_takeValue_quoted (room : Nat) (s : String) {t : List Char}
    (ht : t.head? ≠ some '"') :
    outcome (takeValue room (quoted s ++ t)) = some (.string s, t) := by
  have hquoted := outcome_takeQuoted_quoted s ht
  rw [quoted_append] at hquoted ⊢
  rw [outcome_takeValue_quote, hquoted]
  rfl

section Parts

variable {α : Type} {close c : Char} {part : (s : List Char) → Step α s} {s r r' t : List Char}
  {a : α}

theorem outcome_takeParts_close (hclose : StartsItem close)
    (hs : s.dropWhile isSpace = close :: t) :
    outcome (takeParts close part s) = some ([], t) := by
  obtain ⟨hle, hblank⟩ := leaves_eq_some_iff.mp (leaves_skipBlank? hs hclose)
  rw [takeParts, hblank]
  simp only [Option.bind_eq_bind, Option.bind_some, if_pos]
  rfl

section First

variable (hs : s.dropWhile isSpace = c :: r) (hc : StartsItem c) (hne : c ≠ close)
  (hpart : outcome (part (c :: r)) = some (a, r'))
include hs hc hne hpart

/-- A part with the closing character after it is the last one. -/
theorem outcome_takeParts_last (hclose : StartsItem close)
    (hr' : r'.dropWhile isSpace = close :: t) :
    outcome (takeParts close part s) = some ([a], t) := by
  obtain ⟨hle, hblank⟩ := leaves_eq_some_iff.mp (leaves_skipBlank? hs hc)
  obtain ⟨hlt, hpart⟩ := outcome_eq_some_iff.mp hpart
  obtain ⟨hle', hblank'⟩ := leaves_eq_some_iff.mp (leaves_skipBlank? hr' hclose)
  rw [takeParts, hblank]
  simp only [Option.bind_eq_bind, Option.bind_some, if_neg hne, hpart, hblank', if_pos]
  rfl

/-- After a part with a comma the others follow. -/
theorem outcome_takeParts_comma (hcomma : ',' ≠ close) (hr' : r'.dropWhile isSpace = ',' :: t) :
    outcome (takeParts close part s) =
      (outcome (takeParts close part t)).map fun p => (a :: p.1, p.2) := by
  have hstarts : StartsItem ',' := by constructor <;> decide
  obtain ⟨hle, hblank⟩ := leaves_eq_some_iff.mp (leaves_skipBlank? hs hc)
  obtain ⟨hlt, hpart⟩ := outcome_eq_some_iff.mp hpart
  obtain ⟨hle', hblank'⟩ := leaves_eq_some_iff.mp (leaves_skipBlank? hr' hstarts)
  rw [takeParts, hblank]
  simp only [Option.bind_eq_bind, Option.bind_some, if_neg hne, hpart, hblank', if_neg hcomma,
    if_pos]
  cases takeParts close part t <;> rfl

end First

end Parts

/-- The items of an array are read back, whatever spaces stand before the first one. -/
theorem outcome_takeParts_written (room : Nat) (first : String) (ss : List String)
    (s t : List Char)
    (hs : s.dropWhile isSpace = quoted first ++ (writtenMore ss ++ ']' :: t)) :
    outcome (takeParts ']' (takeValue room) s) = some ((first :: ss).map .string, t) := by
  have hquote : StartsItem '"' := by constructor <;> decide
  have hclose : StartsItem ']' := by constructor <;> decide
  induction ss generalizing first s with
  | nil =>
    have hvalue := outcome_takeValue_quoted room first (t := ']' :: t) (by simp)
    rw [writtenMore, List.flatMap_nil, List.nil_append] at hs
    rw [quoted_append] at hs hvalue
    exact outcome_takeParts_last hs hquote (by decide) hvalue hclose (hclose.dropWhile t)
  | cons second ss ih =>
    have hmore : writtenMore (second :: ss) ++ ']' :: t =
        ',' :: (' ' :: quoted second ++ (writtenMore ss ++ ']' :: t)) := by
      simp [writtenMore]
    rw [hmore] at hs
    have hvalue := outcome_takeValue_quoted room first
      (t := ',' :: (' ' :: quoted second ++ (writtenMore ss ++ ']' :: t))) (by simp)
    have hrest := ih second (' ' :: quoted second ++ (writtenMore ss ++ ']' :: t)) rfl
    rw [quoted_append] at hs hvalue
    rw [outcome_takeParts_comma hs hquote (by decide) hvalue (by decide) rfl, hrest]
    rfl

theorem outcome_takeValue_bracket (room : Nat) (r : List Char) :
    outcome (takeValue (room + 1) ('[' :: r)) =
      (outcome (takeParts ']' (takeValue room) r)).map fun p => (.array p.1, p.2) := by
  rw [takeValue]
  cases takeParts ']' (takeValue room) r <;> rfl

/-- An array of strings is read back. -/
theorem outcome_takeValue_written (room : Nat) (ss : List String) (t : List Char) :
    outcome (takeValue (room + 1) (writtenStrings ss ++ t)) = some (ofStrings ss, t) := by
  cases ss with
  | nil =>
    have hclose : StartsItem ']' := by constructor <;> decide
    show outcome (takeValue (room + 1) ('[' :: ']' :: t)) = _
    rw [outcome_takeValue_bracket, outcome_takeParts_close hclose (hclose.dropWhile t)]
    rfl
  | cons s ss =>
    have hwritten : writtenStrings (s :: ss) ++ t =
        '[' :: (quoted s ++ (writtenMore ss ++ ']' :: t)) := by
      simp [writtenStrings]
    rw [hwritten, outcome_takeValue_bracket, outcome_takeParts_written room s ss _ t rfl]
    rfl

end AccessPolicy.Toml
