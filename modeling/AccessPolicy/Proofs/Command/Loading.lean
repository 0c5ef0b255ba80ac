import AccessPolicy.Command
import AccessPolicy.Proofs.Except
import AccessPolicy.Proofs.Load

/-! What the files of a check have to be. The policy file must have the text of a configuration, and
the files of the subject and the resource the texts of entities; the check fails if one of them is
absent, cannot be read or has another text. Where the texts are documents, it is known what is
loaded from them. -/

namespace AccessPolicy

namespace Command

/-- What a check works on. -/
structure Inputs where
  config : Config
  subject : Entity
  resource : Entity

variable {files : Files} {policy subject : String} {resource? : Option String} {i : Inputs}

/-- Without a file the resource is empty; else it is the entity that the text of its file tells. -/
inductive ResourceLoads (files : Files) : Option String → Entity → Prop
  | omitted : ResourceLoads files none .empty
  | file {path : String} {resource : Entity} :
      (∃ text, files path = .text text ∧ Entity.reader.parse text = .ok resource) →
      ResourceLoads files (some path) resource

/-- The policy file has the text of the configuration, and the files of the subject and the
resource have theirs. -/
structure Loads (files : Files) (policy subject : String) (resource? : Option String)
    (i : Inputs) : Prop where
  config : ∃ text, files policy = .text text ∧ Config.Written policy text i.config
  subject : ∃ text, files subject = .text text ∧ Entity.reader.parse text = .ok i.subject
  resource : ResourceLoads files resource? i.resource

/-- A policy is loaded exactly if the file has its text. -/
theorem loadPolicy_eq_ok_iff {config : Config} : loadPolicy files policy = .ok config ↔
    ∃ text, files policy = .text text ∧ Config.Written policy text config := by
  rw [loadPolicy]
  split
  · exact mapError_eq_ok_iff.trans Config.load_eq_ok_iff
  · next habsent =>
    constructor
    · rintro ⟨⟩
    · rintro ⟨text, htext, -⟩
      rw [htext] at habsent
      exact absurd rfl habsent

theorem loadEntities_eq_ok_iff {s r : Entity} :
    loadEntities files subject resource? = .ok (s, r) ↔
      (∃ text, files subject = .text text ∧ Entity.reader.parse text = .ok s) ∧
        ResourceLoads files resource? r := by
  unfold loadEntities
  simp only [bind_eq_ok_iff, mapError_eq_ok_iff, ← Entity.load_eq_ok_iff]
  constructor
  · rintro ⟨s', hs, hr⟩
    cases resource? with
    | none =>
      cases hr
      exact ⟨hs, .omitted⟩
    | some path =>
      obtain ⟨r', hr', heq⟩ := bind_eq_ok_iff.mp hr
      cases heq
      exact ⟨hs, .file (Entity.load_eq_ok_iff.mp (mapError_eq_ok_iff.mp hr'))⟩
  · rintro ⟨hs, hr⟩
    refine ⟨s, hs, ?_⟩
    cases hr with
    | omitted => rfl
    | file hr =>
      have hload := Entity.load_eq_ok_iff.mpr hr
      exact bind_eq_ok_iff.mpr ⟨r, mapError_eq_ok_iff.mpr hload, rfl⟩

/-! ### Files of no use -/

/-- A file is of no use where a text of some kind is wanted: it is absent, it cannot be read, or its
text is of another kind. -/
inductive Unusable (files : Files) (path : String) (wanted : String → Prop) : Prop
  | absent : files path = .absent → Unusable files path wanted
  | unreadable {error : FileError} : files path = .unreadable error → Unusable files path wanted
  | unfit {text : String} : files path = .text text → ¬wanted text → Unusable files path wanted

/-- A file is of no use unless it has a text of the kind that is wanted. -/
theorem unusable_iff {path : String} {wanted : String → Prop} :
    Unusable files path wanted ↔ ¬∃ text, files path = .text text ∧ wanted text := by
  constructor
  · rintro (hstate | hstate | ⟨hstate, hunfit⟩) ⟨text, htext, hwanted⟩
    · cases hstate.symm.trans htext
    · cases hstate.symm.trans htext
    · cases hstate.symm.trans htext
      exact hunfit hwanted
  · intro hnone
    cases hstate : files path with
    | absent => exact .absent hstate
    | unreadable error => exact .unreadable hstate
    | text text => exact .unfit hstate fun hwanted => hnone ⟨text, hstate, hwanted⟩

/-- The policy file is not of a configuration, or another file is not of an entity. -/
inductive Fails (files : Files) (policy subject : String) (resource? : Option String) : Prop
  | policy : Unusable files policy (fun text => ∃ c, Config.Written policy text c) →
      Fails files policy subject resource?
  | subject : Unusable files subject (fun text => ∃ e, Entity.reader.parse text = .ok e) →
      Fails files policy subject resource?
  | resource {path : String} : resource? = some path →
      Unusable files path (fun text => ∃ e, Entity.reader.parse text = .ok e) →
      Fails files policy subject resource?

/-- Either some file is of no use or everything loads. -/
theorem fails_iff : Fails files policy subject resource? ↔
    ¬∃ i, Loads files policy subject resource? i := by
  constructor
  · rintro (hu | hu | ⟨rfl, hu⟩) ⟨i, hl⟩
    · obtain ⟨text, htext, hwritten⟩ := hl.config
      exact unusable_iff.mp hu ⟨text, htext, _, hwritten⟩
    · obtain ⟨text, htext, hparse⟩ := hl.subject
      exact unusable_iff.mp hu ⟨text, htext, _, hparse⟩
    · cases hl.resource with
      | file hresource =>
        obtain ⟨text, htext, hparse⟩ := hresource
        exact unusable_iff.mp hu ⟨text, htext, _, hparse⟩
  · refine fun hnone => Classical.not_not.mp fun hf => hnone ?_
    have husable : ∀ {path : String} {wanted : String → Prop},
        (Unusable files path wanted → Fails files policy subject resource?) →
        ∃ text, files path = .text text ∧ wanted text := fun hfails =>
      Classical.not_not.mp fun hunusable => hf (hfails (unusable_iff.mpr hunusable))
    obtain ⟨policyText, hpolicy, c, hc⟩ := husable .policy
    obtain ⟨subjectText, hsubject, s, hs⟩ := husable .subject
    cases resource? with
    | none => exact ⟨⟨c, s, .empty⟩, ⟨_, hpolicy, hc⟩, ⟨_, hsubject, hs⟩, .omitted⟩
    | some path =>
      obtain ⟨resourceText, hresource, r, hr⟩ := husable (.resource rfl)
      exact ⟨⟨c, s, r⟩, ⟨_, hpolicy, hc⟩, ⟨_, hsubject, hs⟩, .file ⟨_, hresource, hr⟩⟩

/-! ### Files whose texts are known -/

/-- Without a file the resource is empty; else it is as the text of its file describes it. -/
inductive ResourceDescribed (files : Files) : Option String → (Entity → Prop) → Prop
  | omitted : ResourceDescribed files none (· = .empty)
  | file {path text : String} {described : Entity → Prop} : files path = .text text →
      Json.Describes Entity.Fine Entity.shape text described →
      ResourceDescribed files (some path) described

/-- The files have documents as texts, which describe what a check works on. -/
structure Documents (files : Files) (policy subject : String) (resource? : Option String)
    (config : Config → Prop) (holder resource : Entity → Prop) : Prop where
  policy : ∃ text, files policy = .text text ∧ Config.Describes policy text config
  subject : ∃ text, files subject = .text text ∧
    Json.Describes Entity.Fine Entity.shape text holder
  resource : ResourceDescribed files resource? resource

theorem exists_text_and_iff {path text : String} {wanted : String → Prop}
    (htext : files path = .text text) :
    (∃ text, files path = .text text ∧ wanted text) ↔ wanted text := by
  simp [htext]

theorem ResourceDescribed.loads_iff {described : Entity → Prop} {resource : Entity}
    (h : ResourceDescribed files resource? described) :
    ResourceLoads files resource? resource ↔ described resource := by
  cases h with
  | omitted =>
    constructor
    · rintro ⟨⟩
      rfl
    · rintro rfl
      exact .omitted
  | file htext hdescribed =>
    rw [← Entity.parse_eq_ok_iff hdescribed]
    constructor
    · rintro (_ | hresource)
      exact (exists_text_and_iff htext).mp hresource
    · exact fun hparse => .file ⟨_, htext, hparse⟩

/-- What documents describe is what loads. -/
theorem Documents.loads_iff {config : Config → Prop} {holder resource : Entity → Prop}
    (hd : Documents files policy subject resource? config holder resource) :
    Loads files policy subject resource? i ↔
      config i.config ∧ holder i.subject ∧ resource i.resource := by
  obtain ⟨policyText, hpolicy, hconfig⟩ := hd.policy
  obtain ⟨subjectText, hsubject, hholder⟩ := hd.subject
  rw [← hconfig.written_iff, ← Entity.parse_eq_ok_iff hholder, ← hd.resource.loads_iff]
  constructor
  · intro hl
    exact ⟨(exists_text_and_iff hpolicy).mp hl.config, (exists_text_and_iff hsubject).mp hl.subject,
      hl.resource⟩
  · rintro ⟨hwritten, hparse, hresource⟩
    exact ⟨⟨_, hpolicy, hwritten⟩, ⟨_, hsubject, hparse⟩, hresource⟩

end Command

end AccessPolicy
