import AccessPolicy.Config.Load
import AccessPolicy.Proofs.Config.RoundTrip
import AccessPolicy.Proofs.Config.Toml
import AccessPolicy.Proofs.Entity
import AccessPolicy.Proofs.File
import AccessPolicy.Proofs.Json.Any
import Mathlib.Data.List.TakeWhile

/-! Loading configurations and entities from files. Something is loaded exactly if its file gives a
text and the text is one of it: TOML for a configuration whose path has that extension, and JSON
otherwise. A file that gives no text and a text that is nothing of the kind each have their own
error. Of the texts of JSON values, and of TOML documents, it is known what they describe. -/

namespace AccessPolicy

open Json (Shape Reader)

variable {files : Files} {path text : String}

theorem FileState.read_eq_ok_iff {state : FileState} :
    state.read = .ok text ↔ state = .text text := by
  cases state <;> simp [read]

/-! ### JSON texts -/

namespace Json

variable {α : Type}

/-- What JSON texts describe. The text of a value, perhaps with blanks after it, describes what the
value stands for. A text that goes on after a value describes nothing, and neither does one that
starts with no brace and no bracket. -/
inductive Describes (fine : Json → Prop) (shape : Shape α) (text : String) : (α → Prop) → Prop
  | value {v : Json} {after : List Char} : fine v → (∀ c ∈ after, isBlank c = true) →
      text = String.ofList (v.print ++ after) → Describes fine shape text (shape v)
  | more {v : Json} {after : List Char} : fine v → EndsNumeral after → skipBlank after ≠ [] →
      text = String.ofList (v.print ++ after) → Describes fine shape text fun _ => False
  | other : (∀ r, skipBlank text.toList ≠ '{' :: r) → (∀ r, skipBlank text.toList ≠ '[' :: r) →
      Describes fine shape text fun _ => False

theorem endsNumeral_of_blank {after : List Char} (h : ∀ c ∈ after, isBlank c = true) :
    EndsNumeral after := by
  intro c hc
  have hblank := h c (List.mem_of_mem_head? hc)
  simp only [isBlank, Bool.or_eq_true, beq_iff_eq] at hblank
  rcases hblank with ((rfl | rfl) | rfl) | rfl <;> decide

theorem Describes.render {fine : Json → Prop} {v : Json} (hv : fine v) (shape : Shape α) :
    Describes fine shape v.render (shape v) :=
  .value hv (fun _ hc => absurd hc List.not_mem_nil) (by rw [List.append_nil, Json.render])

/-- A reader of records reads what texts describe. -/
theorem Describes.parse_eq_ok_iff {wanted : String} {fields : List (Reader.Field α)} {start : α}
    {fine : Json → Prop} {shape : Shape α} {described : α → Prop}
    (hagrees : ∀ v, fine v → AgreesOn ((Reader.record wanted fields start).ofText nestingLimit)
      (Reader.record wanted fields start).ofValue v)
    (haccepts : (Reader.record wanted fields start).Accepts shape)
    (h : Describes fine shape text described) {a : α} :
    (Reader.record wanted fields start).parse text = .ok a ↔ described a := by
  rw [← toOption_eq_some_iff]
  cases h with
  | @value v after hv hafter htext =>
    have hskip : skipBlank after = [] := List.dropWhile_eq_nil_iff.mpr hafter
    rw [htext, Reader.toOption_parse_print (hagrees v hv) (endsNumeral_of_blank hafter),
      if_pos hskip]
    exact haccepts.toOption_iff
  | @more v after hv hafter hmore htext =>
    rw [htext, Reader.toOption_parse_print (hagrees v hv) hafter, if_neg hmore]
    simp
  | other hobject hlist =>
    rw [Reader.toOption_parse_record_other wanted fields start hobject hlist]
    simp

end Json

/-! ### Configurations -/

namespace Config

/-- The text of a file at a path is one of a configuration. -/
inductive Written (path text : String) (c : Config) : Prop
  | toml : extension? path = some "toml" → parseToml text = .ok c → Written path text c
  | json : extension? path ≠ some "toml" → parseJson text = .ok c → Written path text c

variable {c : Config}

theorem written_iff : Written path text c ↔
    (if extension? path = some "toml" then parseToml text else parseJson text) = .ok c := by
  split
  · next h => exact ⟨fun | .toml _ hc => hc | .json hne _ => absurd h hne, .toml h⟩
  · next h => exact ⟨fun | .toml heq _ => absurd heq h | .json _ hc => hc, .json h⟩

/-- A configuration is loaded exactly if the file has a text of it. -/
theorem load_eq_ok_iff :
    load files path = .ok c ↔ ∃ text, files path = .text text ∧ Written path text c := by
  simp only [load, bind_eq_ok_iff, mapError_eq_ok_iff, FileState.read_eq_ok_iff, written_iff]

/-- A file that gives no text has the error of the file. -/
theorem load_of_read_eq_error {error : FileError} (h : (files path).read = .error error) :
    load files path = .error (.file error) := by
  rw [load, h]
  rfl

/-- What is read is a configuration or a parse error. -/
theorem parseToml_cases (text : String) :
    (∃ c, parseToml text = .ok c) ∨ parseToml text = .error (.parse .toml) := by
  rw [parseToml]
  cases (Toml.parse? text).bind ofToml? with
  | none => exact .inr rfl
  | some c => exact .inl ⟨c, rfl⟩

/-- A text that is not of a configuration is a parse error. -/
theorem load_of_not_written (h : files path = .text text) (hnot : ¬∃ c, Written path text c) :
    ∃ fault, load files path = .error (.parse fault) := by
  have hload : load files path =
      if extension? path = some "toml" then parseToml text else parseJson text := by
    rw [load, h]
    rfl
  rw [hload]
  split
  · next hext =>
    refine ⟨.toml, (parseToml_cases text).resolve_left ?_⟩
    rintro ⟨c, hc⟩
    exact hnot ⟨c, .toml hext hc⟩
  · next hext =>
    refine (ofRead_cases (reader.parse text)).resolve_left ?_
    rintro ⟨c, hc⟩
    exact hnot ⟨c, .json hext hc⟩

/-- What the text of a file describes. Under the extension `toml`, a document describes a
configuration, with its lists in any order, and what goes on after some lines with a character that
starts none describes nothing. Otherwise the text is one of JSON. -/
inductive Describes (path text : String) : (Config → Prop) → Prop
  | toml {lines : List Toml.Line} {policies hierarchy : Listing} :
      extension? path = some "toml" → Lists lines policies hierarchy →
      text = String.ofList (lines.flatMap Toml.Line.print) →
      Describes path text fun c =>
        policies.Perm c.roleListing ∧ hierarchy.Perm c.hierarchy.edges.toList
  | noToml {lines : List Toml.Line} {ch : Char} {after : List Char} :
      extension? path = some "toml" → (∀ line ∈ lines, line.Fits) → Toml.StartsNothing ch →
      text = String.ofList (lines.flatMap Toml.Line.print ++ ch :: after) →
      Describes path text fun _ => False
  | json {described : Config → Prop} : extension? path ≠ some "toml" →
      Json.Describes Json.Finite shape text described → Describes path text described

/-- A text that describes something is of just that. -/
theorem Describes.written_iff {described : Config → Prop} (h : Describes path text described) :
    Written path text c ↔ described c := by
  rw [Config.written_iff]
  cases h with
  | toml hext hlists htext => rw [if_pos hext, htext, parseToml_eq_ok_iff hlists]
  | noToml hext hlines hch htext =>
    rw [if_pos hext, htext, parseToml_of_startsNothing hlines hch]
    exact ⟨nofun, False.elim⟩
  | json hext hjson =>
    rw [if_neg hext, parseJson, ofRead_eq_ok_iff, toOption_eq_some_iff]
    exact hjson.parse_eq_ok_iff (fun v hv => agreesFrom_reader _ (by decide) v hv) accepts_reader

end Config

/-! ### Entities -/

namespace Entity

variable {e : Entity}

/-- An entity is loaded exactly if the file has a text of it. -/
theorem load_eq_ok_iff :
    load files path = .ok e ↔ ∃ text, files path = .text text ∧ reader.parse text = .ok e := by
  simp only [load, bind_eq_ok_iff, mapError_eq_ok_iff, FileState.read_eq_ok_iff]

/-- A file that gives no text has the error of the file. -/
theorem load_of_read_eq_error {error : FileError} (h : (files path).read = .error error) :
    load files path = .error (.file error) := by
  rw [load, h]
  rfl

/-- A text that is not of an entity has an error that names the file. -/
theorem load_of_not_parsed (h : files path = .text text)
    (hnot : ¬∃ e, reader.parse text = .ok e) :
    ∃ error, load files path = .error (.invalid path error) := by
  cases hparse : reader.parse text with
  | ok e => exact absurd ⟨e, hparse⟩ hnot
  | error error =>
    refine ⟨error, ?_⟩
    rw [load, h]
    show (reader.parse text).mapError _ = _
    rw [hparse]
    rfl

/-- Values from whose texts entities are read as from the values: what is in the attributes, or in
any other container, is read back as it is written. -/
structure Fine (v : Json) : Prop where
  finite : v.Finite
  fits : ∀ w ∈ v.parts, ∀ x ∈ w.parts, x.Fits 125

/-- Besides the values in the attributes, two containers are nested: the entity, and one for each
field that is no text. -/
theorem agreesOn_reader {v : Json} (hv : Fine v) :
    Json.AgreesOn (reader.ofText Json.nestingLimit) reader.ofValue v := by
  suffices hfields : ∀ w ∈ v.parts, Reader.FieldsAgreeOn _ 126 w from
    Reader.agreesOn_record _ _ hv.finite hfields
  intro w hw
  have hfinite := hv.finite.parts w hw
  have hparts : ∀ x ∈ w.parts, Json.AgreesOn (Reader.any.ofText 125) Reader.any.ofValue x :=
    fun x hx => (hv.fits w hw x hx).agreesOn_any
  have htext : Json.AgreesOn (Reader.string.ofText 126) Reader.string.ofValue w :=
    Reader.AgreesFrom.string 126 (by decide) w hfinite
  have hnames : Json.AgreesOn ((Reader.list .string).ofText 126) (Reader.list .string).ofValue w :=
    Reader.AgreesFrom.string.list 126 (by decide) w hfinite
  have hvalues : Json.AgreesOn ((Reader.keyMap .any).ofText 126) (Reader.keyMap .any).ofValue w :=
    Reader.agreesOn_keyMap hfinite hparts
  simp only [Reader.FieldsAgreeOn, List.forall_mem_cons, List.not_mem_nil, false_implies,
    implies_true, and_true]
  exact ⟨Reader.agreesOn_map htext _, Reader.agreesOn_map htext _, Reader.agreesOn_map hnames _,
    Reader.agreesOn_map hnames _, Reader.agreesOn_map hnames _, Reader.agreesOn_map hvalues _⟩

/-- A text that describes something is read as just that. -/
theorem parse_eq_ok_iff {described : Entity → Prop}
    (h : Json.Describes Fine shape text described) : reader.parse text = .ok e ↔ described e :=
  h.parse_eq_ok_iff (fun _ hv => agreesOn_reader hv) accepts_reader

end Entity

end AccessPolicy
