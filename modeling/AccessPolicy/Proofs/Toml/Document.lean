import AccessPolicy.Proofs.Toml.Item
import AccessPolicy.Toml.Document

/-! TOML documents as they are written, line by line: headers, entries with arrays of strings, blank
lines and comments. Reading the text of lines gives the statements in them, and the document is what
the statements make of an empty one. A text that goes on with a character that starts no line is no
document. -/

namespace AccessPolicy.Toml

/-- A line of a document as it is written. -/
inductive Line where
  | blank
  | comment (text : String)
  | header (key : Key)
  | entry (key : Key) (items : List String)

namespace Line

/-- A line with its line end. -/
def print : Line → List Char
  | blank => ['\n']
  | comment text => '#' :: text.toList ++ ['\n']
  | header key => '[' :: key.print ++ [']', '\n']
  | entry key items => key.print ++ ' ' :: '=' :: ' ' :: writtenStrings items ++ ['\n']

/-- The statement of a line, if it has one. -/
def statement? : Line → Option Statement
  | blank | comment _ => none
  | header key => some (.table key)
  | entry key items => some (.entry key (ofStrings items))

/-- Comments have no control characters in them, and keys are no longer than they may be. -/
def Fits : Line → Prop
  | blank => True
  | comment text => ∀ c ∈ text.toList, isPlain c = true
  | header key | entry key _ => key.path.length ≤ maxPathLength

end Line

/-! ### One line -/

theorem outcome_takeHeader (key : Key) (hkey : key.path.length ≤ maxPathLength) (t : List Char) :
    outcome (takeHeader 1 (key.print ++ ']' :: t)) = some (key, t) := by
  have hends : EndsKey (']' :: t) := by
    constructor
    · rintro _ ⟨⟩
      rfl
    · rintro _ ⟨⟩
      decide
  obtain ⟨hle, hskip⟩ := skipSpace_eq (key.dropWhile_print (']' :: t))
  obtain ⟨hlt, htake⟩ := outcome_eq_some_iff.mp (outcome_takeKey key hkey hends)
  rw [takeHeader, hskip]
  simp only [htake, Option.bind_eq_bind, Option.bind_some]
  rfl

theorem outcome_takeStatement_header (key : Key) (hkey : key.path.length ≤ maxPathLength)
    (t : List Char) :
    outcome (takeStatement ('[' :: (key.print ++ ']' :: t))) = some (.table key, t) := by
  have hheader := outcome_takeHeader key hkey t
  obtain ⟨c, r, hcons, hc⟩ := key.exists_print
  rw [hcons, List.cons_append] at hheader ⊢
  obtain ⟨hlt, hheader⟩ := outcome_eq_some_iff.mp hheader
  rw [takeStatement]
  · rw [hheader]
    rfl
  · rintro _ ⟨⟩
    exact hc.ne (by decide) rfl

theorem outcome_takeEntry {s r t : List Char} {key : Key} {value : Toml}
    (hkey : outcome (takeKey s) = some (key, '=' :: r))
    (hvalue : outcome (takeValue nestingLimit (r.dropWhile isSpace)) = some (value, t)) :
    outcome (takeEntry s) = some (.entry key value, t) := by
  obtain ⟨hlt, hkey⟩ := outcome_eq_some_iff.mp hkey
  obtain ⟨hlt', hvalue⟩ := outcome_eq_some_iff.mp hvalue
  rw [takeEntry, hkey]
  show outcome ((takeValue nestingLimit (r.dropWhile isSpace)).bind _) = _
  rw [hvalue]
  rfl

theorem outcome_takeEntry_strings (key : Key) (hkey : key.path.length ≤ maxPathLength)
    (items : List String) (t : List Char) :
    outcome (takeEntry (key.print ++ ' ' :: '=' :: ' ' :: (writtenStrings items ++ t))) =
      some (.entry key (ofStrings items), t) := by
  have hends : EndsKey (' ' :: '=' :: ' ' :: (writtenStrings items ++ t)) := by
    constructor
    · rintro _ ⟨⟩
      rfl
    · rintro _ ⟨⟩
      decide
  have hspace : (' ' :: (writtenStrings items ++ t)).dropWhile isSpace =
      writtenStrings items ++ t := by
    cases items <;> rfl
  refine outcome_takeEntry (outcome_takeKey key hkey hends) ?_
  rw [hspace]
  exact outcome_takeValue_written 79 items t

theorem outcome_takeStatement_entry (key : Key) (hkey : key.path.length ≤ maxPathLength)
    (items : List String) (t : List Char) :
    outcome (takeStatement (key.print ++ ' ' :: '=' :: ' ' :: (writtenStrings items ++ t))) =
      some (.entry key (ofStrings items), t) := by
  have hentry := outcome_takeEntry_strings key hkey items t
  obtain ⟨c, r, hcons, hc⟩ := key.exists_print
  rw [hcons, List.cons_append] at hentry ⊢
  have hbracket : c ≠ '[' := hc.ne (by decide)
  rw [takeStatement]
  · exact hentry
  · exact fun _ heq => hbracket (List.cons.inj heq).1
  · exact fun _ heq => hbracket (List.cons.inj heq).1

theorem leaves_endLine? (t : List Char) : leaves (endLine? ('\n' :: t)) = some t := rfl

/-! ### All lines -/

theorem statements?_of_takeStatement {c : Char} {r t : List Char} {st : Statement}
    (hc : StartsItem c) (hst : outcome (takeStatement (c :: r)) = some (st, '\n' :: t)) :
    statements? (c :: r) = (statements? t).map (st :: ·) := by
  obtain ⟨hle, hblank⟩ := leaves_eq_some_iff.mp (leaves_skipBlank? (hc.dropWhile r) hc)
  obtain ⟨hlt, hst⟩ := outcome_eq_some_iff.mp hst
  obtain ⟨hle', hend⟩ := leaves_eq_some_iff.mp (leaves_endLine? t)
  rw [statements?, hblank]
  simp only [hst, hend, Option.bind_eq_bind, Option.bind_some]
  cases statements? t <;> rfl

/-- Texts that are the same after the blanks at their fronts hold the same statements. -/
theorem statements?_congr {s t : List Char}
    (h : leaves (skipBlank? s) = leaves (skipBlank? t)) : statements? s = statements? t := by
  rw [statements?, statements?]
  cases ht : skipBlank? t with
  | none =>
    rw [ht] at h
    rw [Option.map_eq_none_iff.mp h]
    rfl
  | some p =>
    obtain ⟨r, hr⟩ := p
    rw [ht] at h
    obtain ⟨hr', hs⟩ := leaves_eq_some_iff.mp h
    rw [hs]
    cases r <;> rfl

theorem leaves_skipBlank?_lineFeed (t : List Char) :
    leaves (skipBlank? ('\n' :: t)) = leaves (skipBlank? t) := by
  obtain ⟨hle, hskip⟩ := skipSpace_eq (s := '\n' :: t) (r := '\n' :: t) rfl
  rw [skipBlank?, hskip]
  show leaves ((skipBlank? t).bind _) = _
  cases skipBlank? t <;> rfl

theorem leaves_skipComment? {cs : List Char} (hcs : ∀ c ∈ cs, isPlain c = true) (t : List Char) :
    leaves (skipComment? (cs ++ '\n' :: t)) = some ('\n' :: t) := by
  induction cs with
  | nil => rfl
  | cons c cs ih =>
    obtain ⟨hle, hrest⟩ := leaves_eq_some_iff.mp (ih fun d hd => hcs d (List.mem_cons_of_mem _ hd))
    rw [List.cons_append, skipComment?, if_pos (hcs c List.mem_cons_self), hrest]
    rfl

/-- A comment is passed over to the end of its line. -/
theorem leaves_skipBlank?_comment {cs : List Char} (hcs : ∀ c ∈ cs, isPlain c = true)
    (t : List Char) :
    leaves (skipBlank? ('#' :: (cs ++ '\n' :: t))) = leaves (skipBlank? t) := by
  obtain ⟨hle, hskip⟩ := skipSpace_eq (s := '#' :: (cs ++ '\n' :: t)) rfl
  obtain ⟨hle', hcomment⟩ := leaves_eq_some_iff.mp (leaves_skipComment? hcs t)
  rw [skipBlank?, hskip, ← leaves_skipBlank?_lineFeed]
  show leaves ((skipComment? (cs ++ '\n' :: t)).bind _) = _
  rw [hcomment]
  show leaves ((skipBlank? ('\n' :: t)).bind _) = _
  cases skipBlank? ('\n' :: t) <;> rfl

/-- A line gives its statement, whatever lines follow it. -/
theorem statements?_line {line : Line} (hline : line.Fits) (t : List Char) :
    statements? (line.print ++ t) = (statements? t).map (line.statement?.toList ++ ·) := by
  cases line with
  | blank =>
    show statements? ('\n' :: t) = (statements? t).map id
    rw [statements?_congr (leaves_skipBlank?_lineFeed t), Option.map_id_fun, id]
  | comment text =>
    have hprint : (Line.comment text).print ++ t = '#' :: (text.toList ++ '\n' :: t) := by
      simp [Line.print]
    show _ = (statements? t).map id
    rw [hprint, statements?_congr (leaves_skipBlank?_comment hline t), Option.map_id_fun, id]
  | header key =>
    have hprint : (Line.header key).print ++ t = '[' :: (key.print ++ ']' :: '\n' :: t) := by
      simp [Line.print]
    rw [hprint]
    exact statements?_of_takeStatement (by constructor <;> decide)
      (outcome_takeStatement_header key hline ('\n' :: t))
  | entry key items =>
    have hprint : (Line.entry key items).print ++ t =
        key.print ++ ' ' :: '=' :: ' ' :: (writtenStrings items ++ '\n' :: t) := by
      simp [Line.print]
    have hentry := outcome_takeStatement_entry key hline items ('\n' :: t)
    obtain ⟨c, r, hcons, hc⟩ := key.exists_print
    rw [hprint]
    rw [hcons, List.cons_append] at hentry ⊢
    exact statements?_of_takeStatement hc.startsItem hentry

/-- The statements in the text of lines are read, in order, before those of what follows. -/
theorem statements?_lines {lines : List Line} (hlines : ∀ line ∈ lines, line.Fits)
    (t : List Char) :
    statements? (lines.flatMap Line.print ++ t) =
      (statements? t).map (lines.filterMap Line.statement? ++ ·) := by
  induction lines with
  | nil => exact Option.map_id'.symm
  | cons line lines ih =>
    rw [List.flatMap_cons, List.append_assoc, statements?_line (hlines line List.mem_cons_self),
      ih fun l hl => hlines l (List.mem_cons_of_mem _ hl), List.filterMap_cons, Option.map_map]
    cases line.statement? <;> rfl

theorem statements?_nil : statements? [] = some [] := by
  rw [statements?, skipBlank?]
  rfl

theorem Line.exists_print (line : Line) : ∃ c r, line.print = c :: r ∧ c ≠ byteOrderMark := by
  cases line with
  | blank => exact ⟨_, _, rfl, by decide⟩
  | comment text => exact ⟨_, _, rfl, by decide⟩
  | header key => exact ⟨_, _, rfl, by decide⟩
  | entry key items =>
    obtain ⟨c, r, hcons, hc⟩ := key.exists_print
    refine ⟨c, r ++ ' ' :: '=' :: ' ' :: writtenStrings items ++ ['\n'], ?_, hc.ne (by decide)⟩
    rw [print, hcons, List.cons_append, List.cons_append]

/-- The document in the text of lines, and of what follows them, is what the statements make of an
empty one. -/
theorem parse?_lines_append {lines : List Line} (hlines : ∀ line ∈ lines, line.Fits)
    {t : List Char} (ht : t.head? ≠ some byteOrderMark) :
    parse? (String.ofList (lines.flatMap Line.print ++ t)) =
      (statements? t).bind fun more =>
        ((lines.filterMap Line.statement? ++ more).foldlM Draft.add? .start).map (·.root.toToml) := by
  have hmark : (lines.flatMap Line.print ++ t).head? ≠ some byteOrderMark := by
    cases lines with
    | nil => exact ht
    | cons line lines =>
      obtain ⟨c, r, hcons, hc⟩ := line.exists_print
      rw [List.flatMap_cons, hcons, List.cons_append, List.cons_append, List.head?_cons, ne_eq,
        Option.some.injEq]
      exact hc
  rw [parse?, String.toList_ofList]
  simp only [if_neg hmark, statements?_lines hlines]
  cases statements? t with
  | none => rfl
  | some more =>
    show (((lines.filterMap Line.statement? ++ more).foldlM Draft.add? .start).bind _) = _
    rw [Option.bind_some, Option.map_eq_bind]
    rfl

theorem parse?_lines {lines : List Line} (hlines : ∀ line ∈ lines, line.Fits) :
    parse? (String.ofList (lines.flatMap Line.print)) =
      ((lines.filterMap Line.statement?).foldlM Draft.add? .start).map (·.root.toToml) := by
  have hparse := parse?_lines_append hlines (t := []) (by decide)
  rwa [List.append_nil, statements?_nil, Option.bind_some, List.append_nil] at hparse

/-! ### What is no line -/

/-- A character that is not passed over and starts no statement. -/
structure StartsNothing (c : Char) : Prop extends StartsItem c where
  not_bare : isBare c = false
  ne_quote : c ≠ '"'
  ne_apostrophe : c ≠ '\''
  ne_bracket : c ≠ '['
  ne_mark : c ≠ byteOrderMark

theorem StartsNothing.statements? {c : Char} (hc : StartsNothing c) (r : List Char) :
    statements? (c :: r) = none := by
  obtain ⟨hle, hblank⟩ := leaves_eq_some_iff.mp
    (leaves_skipBlank? (hc.toStartsItem.dropWhile r) hc.toStartsItem)
  have hname : takeName (c :: r) = none := by
    rw [takeName, if_neg (by rw [hc.not_bare]; decide)]
    · exact hc.ne_quote
    · exact hc.ne_apostrophe
  have hkey : takeKey (c :: r) = none := by
    rw [takeKey, takeNames, hname]
    rfl
  have hstatement : takeStatement (c :: r) = none := by
    rw [takeStatement, takeEntry, hkey]
    · rfl
    · exact fun _ heq => hc.ne_bracket (List.cons.inj heq).1
    · exact fun _ heq => hc.ne_bracket (List.cons.inj heq).1
  rw [Toml.statements?, hblank]
  show (takeStatement (c :: r)).bind _ = _
  rw [hstatement]
  rfl

/-- A document that goes on with such a character after some lines is none. -/
theorem parse?_of_startsNothing {lines : List Line} (hlines : ∀ line ∈ lines, line.Fits) {c : Char}
    (hc : StartsNothing c) (r : List Char) :
    parse? (String.ofList (lines.flatMap Line.print ++ c :: r)) = none := by
  have hmark : (c :: r).head? ≠ some byteOrderMark := by
    rw [List.head?_cons, ne_eq, Option.some.injEq]
    exact hc.ne_mark
  rw [parse?_lines_append hlines hmark, hc.statements? r, Option.bind_none]

end AccessPolicy.Toml
