import AccessPolicy.Proofs.Command.Loading
import AccessPolicy.Proofs.Conditions.Permission

/-! Checking a request from the command line. A check whose files have the texts of a configuration
and of entities ends with its decision, which is its only line of output: status 0 if the
configuration permits the action and 2 if it does not. If one of the files is absent, cannot be read
or has another text, it ends with status 1 and no output. Rules with unknown conditions do not
change the status. -/

namespace AccessPolicy

namespace Command

namespace Inputs

/-- The decision on these inputs, with strict conditions if asked. -/
def decision (i : Inputs) (strict : Bool) (action : String) : Decision :=
  (((compileConfig i.config).value.evaluator.inMode strict).decide
    ⟨i.subject, i.resource, action⟩).value.value

/-- The configuration permits the subject the action on the resource. -/
def Permits (i : Inputs) (strict : Bool) (action : String) : Prop :=
  i.config.Permits strict i.subject i.resource action

/-- Both have the same subject, resource and hierarchy, and the same rules apart from those whose
condition is unknown. -/
structure SameKnown (i i' : Inputs) : Prop where
  subject : i.subject = i'.subject
  resource : i.resource = i'.resource
  hierarchy : i.config.hierarchy = i'.config.hierarchy
  rules : ∀ rule, ¬Unresolved builtinRegistry.lookup rule.text →
    (rule ∈ i.config.rules ↔ rule ∈ i'.config.rules)

variable {i i' : Inputs} {strict : Bool} {action : String}

theorem isAllowed_decision_iff : (i.decision strict action).isAllowed = true ↔
    i.Permits strict action :=
  isAllowed_decide_compileConfig_iff_permits

/-- Rules with unknown conditions permit nothing. -/
theorem SameKnown.permits_iff (hs : i.SameKnown i') :
    i.Permits strict action ↔ i'.Permits strict action := by
  rw [Permits, Permits, ← hs.subject, ← hs.resource]
  exact Config.permits_congr hs.hierarchy fun rule he => hs.rules rule he.not_unresolved

end Inputs

variable {files : Files} {policy subject action : String} {resource? : Option String}
  {strict : Bool} {i : Inputs}

/-! ### Running -/

theorem run_check_of_loads (hl : Loads files policy subject resource? i) :
    run files ⟨policy, .check subject resource? action strict⟩ =
      check i.config i.subject i.resource action strict := by
  have hpolicy := loadPolicy_eq_ok_iff.mpr hl.config
  have hentities := loadEntities_eq_ok_iff.mpr ⟨hl.subject, hl.resource⟩
  simp only [run, hpolicy, hentities]

/-- If something does not load the run fails before it prints anything. -/
theorem exists_run_check_eq_failure (hl : ¬∃ i, Loads files policy subject resource? i) :
    ∃ error, run files ⟨policy, .check subject resource? action strict⟩ = .failure error := by
  unfold run
  cases hpolicy : loadPolicy files policy with
  | error e => exact ⟨e, rfl⟩
  | ok config =>
    cases hentities : loadEntities files subject resource? with
    | error e => exact ⟨e, by simp only [hentities]⟩
    | ok entities =>
      obtain ⟨hsubject, hresource⟩ := loadEntities_eq_ok_iff.mp hentities
      have hconfig := loadPolicy_eq_ok_iff.mp hpolicy
      exact absurd ⟨⟨config, entities.1, entities.2⟩, hconfig, hsubject, hresource⟩ hl

/-! ### Status and output -/

theorem exitStatus_failure (error : CommandError) : (Report.failure error).exitStatus = 1 := rfl

theorem output_failure (error : CommandError) : (Report.failure error).output = "" := rfl

theorem exitStatus_check (i : Inputs) (action : String) (strict : Bool) :
    (check i.config i.subject i.resource action strict).exitStatus =
      if (i.decision strict action).isAllowed then 0 else 2 := by
  show (match (.ok (i.decision strict action).isAllowed : Verdict) with
    | .ok true => 0
    | .ok false => 2
    | .error _ => 1) = _
  cases (i.decision strict action).isAllowed <;> rfl

theorem lines_check (i : Inputs) (action : String) (strict : Bool) :
    (check i.config i.subject i.resource action strict).lines =
      [decisionLine action (i.decision strict action)] :=
  rfl

/-- The line for a decision starts with `allow` if the decision allows the action. -/
theorem isPrefix_unlines_decisionLine_iff {d : Decision} :
    "allow".toList <+: (Report.unlines [decisionLine action d]).toList ↔ d.isAllowed = true := by
  cases d with
  | allow policy rule => simp [Report.unlines, decisionLine, Decision.isAllowed, toString]
  | deny reason => simp [Report.unlines, decisionLine, Decision.isAllowed, toString]

section OfLoads

variable (hl : Loads files policy subject resource? i)
include hl

theorem exitStatus_run_eq_zero_iff_of_loads :
    (run files ⟨policy, .check subject resource? action strict⟩).exitStatus = 0 ↔
      i.Permits strict action := by
  rw [run_check_of_loads hl, exitStatus_check, ← Inputs.isAllowed_decision_iff]
  cases (i.decision strict action).isAllowed <;> simp

theorem exitStatus_run_eq_two_iff_of_loads :
    (run files ⟨policy, .check subject resource? action strict⟩).exitStatus = 2 ↔
      ¬i.Permits strict action := by
  rw [run_check_of_loads hl, exitStatus_check, ← Inputs.isAllowed_decision_iff]
  cases (i.decision strict action).isAllowed <;> simp

theorem isPrefix_output_iff_of_loads :
    "allow".toList <+:
        (run files ⟨policy, .check subject resource? action strict⟩).output.toList ↔
      i.Permits strict action := by
  rw [run_check_of_loads hl, Report.output, lines_check, isPrefix_unlines_decisionLine_iff,
    Inputs.isAllowed_decision_iff]

end OfLoads

/-- Where something cannot be loaded the status is 1. -/
theorem exitStatus_run_eq_iff {status : Nat} (hne : status ≠ 1) :
    (run files ⟨policy, .check subject resource? action strict⟩).exitStatus = status ↔
      ∃ i, Loads files policy subject resource? i ∧
        (run files ⟨policy, .check subject resource? action strict⟩).exitStatus = status := by
  rw [exists_and_right, iff_and_self]
  intro hstatus
  by_cases hl : ∃ i, Loads files policy subject resource? i
  · exact hl
  · obtain ⟨error, hfailure⟩ := exists_run_check_eq_failure hl
    rw [hfailure, exitStatus_failure] at hstatus
    exact absurd hstatus.symm hne

theorem exitStatus_run_eq_zero_iff :
    (run files ⟨policy, .check subject resource? action strict⟩).exitStatus = 0 ↔
      ∃ i, Loads files policy subject resource? i ∧ i.Permits strict action := by
  rw [exitStatus_run_eq_iff (by decide)]
  exact exists_congr fun i => and_congr_right exitStatus_run_eq_zero_iff_of_loads

theorem exitStatus_run_eq_two_iff :
    (run files ⟨policy, .check subject resource? action strict⟩).exitStatus = 2 ↔
      ∃ i, Loads files policy subject resource? i ∧ ¬i.Permits strict action := by
  rw [exitStatus_run_eq_iff (by decide)]
  exact exists_congr fun i => and_congr_right exitStatus_run_eq_two_iff_of_loads

/-- Status 1 tells that a file is of no use. -/
theorem exitStatus_run_eq_one_iff :
    (run files ⟨policy, .check subject resource? action strict⟩).exitStatus = 1 ↔
      Fails files policy subject resource? := by
  rw [fails_iff]
  constructor
  · rintro hstatus ⟨i, hl⟩
    rw [run_check_of_loads hl, exitStatus_check] at hstatus
    split at hstatus <;> cases hstatus
  · intro hl
    obtain ⟨error, hfailure⟩ := exists_run_check_eq_failure hl
    rw [hfailure, exitStatus_failure]

/-- What is printed and the status agree, whatever the files are. -/
theorem isPrefix_output_iff_exitStatus_eq_zero :
    "allow".toList <+:
        (run files ⟨policy, .check subject resource? action strict⟩).output.toList ↔
      (run files ⟨policy, .check subject resource? action strict⟩).exitStatus = 0 := by
  by_cases hl : ∃ i, Loads files policy subject resource? i
  · obtain ⟨i, hl⟩ := hl
    rw [isPrefix_output_iff_of_loads hl, exitStatus_run_eq_zero_iff_of_loads hl]
  · obtain ⟨error, hfailure⟩ := exists_run_check_eq_failure hl
    rw [hfailure, output_failure, exitStatus_failure]
    decide

/-- Rules with unknown conditions do not change the status. -/
theorem exitStatus_run_congr {files' : Files} {policy' : String} {i' : Inputs}
    (hl : Loads files policy subject resource? i)
    (hl' : Loads files' policy' subject resource? i') (hs : i.SameKnown i') :
    (run files ⟨policy, .check subject resource? action strict⟩).exitStatus =
      (run files' ⟨policy', .check subject resource? action strict⟩).exitStatus := by
  have hsame : (i.decision strict action).isAllowed = (i'.decision strict action).isAllowed := by
    rw [Bool.eq_iff_iff, Inputs.isAllowed_decision_iff, Inputs.isAllowed_decision_iff,
      hs.permits_iff]
  rw [run_check_of_loads hl, run_check_of_loads hl', exitStatus_check, exitStatus_check, hsame]

/-- A check has status 0 if everything loads and the configuration permits the action, and status 2
if everything loads and it does not. It has status 1, and then prints nothing, if one of its files
is of no use. Where the texts of the files are documents, what loads is what they describe. The only
line of a check tells the decision, and rules with unknown conditions make no difference to its
status. -/
theorem run_check_ends_with_decision (files : Files) (policy subject : String)
    (resource? : Option String) (action : String) (strict : Bool) :
    let report := run files ⟨policy, .check subject resource? action strict⟩
    let Loaded := Loads files policy subject resource?
    (report.exitStatus = 0 ↔ ∃ i, Loaded i ∧ i.Permits strict action) ∧
      (report.exitStatus = 2 ↔ ∃ i, Loaded i ∧ ¬i.Permits strict action) ∧
      (report.exitStatus = 1 ↔ Fails files policy subject resource?) ∧
      ((¬∃ i, Loaded i) → report.exitStatus = 1 ∧ report.output = "") ∧
      (∀ config holder resource, Documents files policy subject resource? config holder resource →
        ∀ i, Loaded i ↔ config i.config ∧ holder i.subject ∧ resource i.resource) ∧
      (∀ i, Loaded i → report.lines = [decisionLine action (i.decision strict action)] ∧
        ((i.decision strict action).isAllowed = true ↔ i.Permits strict action)) ∧
      ("allow".toList <+: report.output.toList ↔ report.exitStatus = 0) ∧
      ∀ files' policy' i i', Loaded i → Loads files' policy' subject resource? i' →
        i.SameKnown i' →
        (run files' ⟨policy', .check subject resource? action strict⟩).exitStatus =
          report.exitStatus := by
  intro report Loaded
  refine ⟨exitStatus_run_eq_zero_iff, exitStatus_run_eq_two_iff, exitStatus_run_eq_one_iff, ?_,
    fun _ _ _ hd i => hd.loads_iff, ?_, isPrefix_output_iff_exitStatus_eq_zero, ?_⟩
  · intro hl
    obtain ⟨error, hfailure⟩ := exists_run_check_eq_failure hl
    rw [show report = .failure error from hfailure]
    exact ⟨exitStatus_failure error, output_failure error⟩
  · intro i hl
    rw [show report = _ from run_check_of_loads hl]
    exact ⟨lines_check i action strict, Inputs.isAllowed_decision_iff⟩
  · intro files' policy' i i' hl hl' hs
    exact (exitStatus_run_congr hl hl' hs).symm

/-! A wiki with its policy in both formats, of which the second has one more rule, and with two
people who may want to edit a page. -/

/-- Admins have the rights of editors, who may read all pages and edit their own. -/
def editors : Config :=
  Config.empty
    |>.withRole "editor" ["read", "edit:isOwner"]
    |>.withHierarchy (RoleHierarchy.empty.insert "admin" ["editor"])

/-- Nothing resolves the condition of the new rule. -/
def editorsWithRoot : Config := editors.withRole "editor" ["edit:isRoot"]

/-- The policy as it is written by hand. -/
def editorsToml : String :=
  "# Who may edit.\n\n[policies.editor]\nallow = [\"read\", \"edit:isOwner\"]\n\n[hierarchy]\n" ++
    "admin = [\"editor\"]\n"

/-- An admin. -/
def annJson : Json :=
  .object [("id", .string "ann"), ("roles", .array [.string "admin"]),
    ("attributes", .object [("active", .bool true)])]

/-- An editor, given with the fields in another order. -/
def bobJson : Json := .object [("roles", .array [.string "editor"]), ("id", .string "bob")]

/-- A page of the admin's, with a field that is not read. -/
def pageJson : Json := .object [("ownerId", .string "ann"), ("size", .number (.int 3))]

/-- What is read of the admin. -/
def ann : Entity :=
  { Entity.empty with
    id := "ann", roles := ["admin"], attributes := .ofList [("active", .bool true)] }

/-- What is read of the editor. -/
def bob : Entity := { Entity.empty with id := "bob", roles := ["editor"] }

/-- What is read of the page. -/
def page : Entity := { Entity.empty with ownerId := "ann" }

/-- The files of the wiki. -/
def wiki : Files
  | "wiki.toml" => .text editorsToml
  | "wiki.json" => .text editorsWithRoot.toJson.render
  | "ann.json" => .text annJson.render
  | "bob.json" => .text bobJson.render
  | "page.json" => .text pageJson.render
  | "notes.txt" => .text "to do"
  | _ => .absent

theorem fine_annJson : Entity.Fine annJson where
  finite := by simp [annJson]
  fits := by simp [annJson, Json.parts]

theorem fine_bobJson : Entity.Fine bobJson where
  finite := by simp [bobJson]
  fits := by simp [bobJson, Json.parts]

theorem fine_pageJson : Entity.Fine pageJson where
  finite := by simp [pageJson, Json.Number.isFinite]
  fits := by simp [pageJson, Json.parts]

theorem documents_wiki {subject : String} {v : Json} (hsubject : wiki subject = .text v.render)
    (hv : Entity.Fine v) :
    Documents wiki "wiki.toml" subject (some "page.json")
      (fun c => editors.roleListing.Perm c.roleListing ∧
        editors.hierarchy.edges.toList.Perm c.hierarchy.edges.toList)
      (Entity.shape v) (Entity.shape pageJson) where
  policy := by
    have hlists : Config.Lists (.comment " Who may edit." :: .blank :: editors.tomlLines)
        editors.roleListing editors.hierarchy.edges.toList :=
      editors.lists_tomlLines.blank.comment (List.all_eq_true.mp (by decide +kernel))
    exact ⟨editorsToml, rfl, .toml (by decide +kernel) hlists (by decide +kernel)⟩
  subject := ⟨v.render, hsubject, .render hv Entity.shape⟩
  resource := .file rfl (.render fine_pageJson Entity.shape)

theorem written_editorsWithRoot :
    Config.Written "wiki.json" editorsWithRoot.toJson.render editorsWithRoot :=
  .json (by decide +kernel) (Config.read_of_perm (.refl editorsWithRoot.jsonFields)).2

theorem sameKnown_editorsWithRoot (subject resource : Entity) :
    Inputs.SameKnown ⟨editors, subject, resource⟩ ⟨editorsWithRoot, subject, resource⟩ where
  subject := rfl
  resource := rfl
  hierarchy := rfl
  rules rule hknown := by
    have hrules : editorsWithRoot.rules = editors.rules ++ [⟨"editor", "edit:isRoot"⟩] := by
      decide +kernel
    have hunresolved : Unresolved builtinRegistry.lookup "edit:isRoot" := by
      decide +kernel
    rw [hrules, List.mem_append, List.mem_singleton]
    constructor
    · exact .inl
    · rintro (hmem | rfl)
      · exact hmem
      · exact absurd hunresolved hknown

/-- Ann owns the page and bob does not. There is no eve, and the notes are no policy. -/
theorem run_check_ends_with_decision_wiki :
    let edit (policy subject : String) : Report :=
      run wiki ⟨policy, .check subject (some "page.json") "edit" false⟩
    (edit "wiki.toml" "ann.json").exitStatus = 0 ∧
      "allow".toList <+: (edit "wiki.toml" "ann.json").output.toList ∧
      (edit "wiki.toml" "bob.json").exitStatus = 2 ∧
      editors.rules ≠ editorsWithRoot.rules ∧
      Inputs.SameKnown ⟨editors, bob, page⟩ ⟨editorsWithRoot, bob, page⟩ ∧
      (edit "wiki.json" "bob.json").exitStatus = 2 ∧
      (edit "wiki.toml" "eve.json").exitStatus = 1 ∧
      (edit "notes.txt" "ann.json").exitStatus = 1 := by
  intro edit
  have hann : Entity.shape annJson ann := (Entity.accepts_reader annJson ann).mp rfl
  have hbob : Entity.shape bobJson bob := (Entity.accepts_reader bobJson bob).mp rfl
  have hpage : Entity.shape pageJson page := (Entity.accepts_reader pageJson page).mp rfl
  have hpermits : (⟨editors, ann, page⟩ : Inputs).Permits false "edit" := by
    have happlies : Action.AppliesIn (false = true) "edit:isOwner" "edit" :=
      ⟨.conditionCoversBase, Action.applies_iff_holds.mpr ⟨by decide, by decide, by decide⟩, nofun⟩
    have hedge : editors.hierarchy.Edge "admin" "editor" := by
      show "editor" ∈ editors.hierarchy.children "admin"
      decide +kernel
    refine ⟨⟨"editor", "edit:isOwner"⟩, by decide +kernel, happlies, ?_, ?_⟩
    · exact ⟨"admin", .head _, .single hedge⟩
    · have hnamed : Rule.Conditioned ("edit" ++ ":" ++ "isOwner") "isOwner" := .colon _ (by decide)
      exact ⟨"isOwner", hnamed, .inr (.isOwner (by decide) rfl)⟩
  have hdenies : ¬(⟨editors, bob, page⟩ : Inputs).Permits false "edit" :=
    mt Inputs.isAllowed_decision_iff.mpr (by decide +kernel)
  have hnotes : ¬∃ c, Config.Written "notes.txt" "to do" c := by
    have hdescribes : Config.Describes "notes.txt" "to do" fun _ => False :=
      .json (by decide +kernel) (.other (by simp [Json.skipBlank, Json.isBlank])
        (by simp [Json.skipBlank, Json.isBlank]))
    rintro ⟨c, hc⟩
    exact hdescribes.written_iff.mp hc
  obtain ⟨hzero, -, -, -, hloaded, -, hallow, -⟩ :=
    run_check_ends_with_decision wiki "wiki.toml" "ann.json" (some "page.json") "edit" false
  have hann := (hloaded _ _ _ (documents_wiki rfl fine_annJson) ⟨editors, ann, page⟩).mpr
    ⟨⟨.refl _, .refl _⟩, hann, hpage⟩
  have hzero : (edit "wiki.toml" "ann.json").exitStatus = 0 := hzero.mpr ⟨_, hann, hpermits⟩
  obtain ⟨-, htwo, -, -, hloaded, -, -, hsame⟩ :=
    run_check_ends_with_decision wiki "wiki.toml" "bob.json" (some "page.json") "edit" false
  have hbob := (hloaded _ _ _ (documents_wiki rfl fine_bobJson) ⟨editors, bob, page⟩).mpr
    ⟨⟨.refl _, .refl _⟩, hbob, hpage⟩
  have htwo : (edit "wiki.toml" "bob.json").exitStatus = 2 := htwo.mpr ⟨_, hbob, hdenies⟩
  have hsameKnown := sameKnown_editorsWithRoot bob page
  have hextended : Loads wiki "wiki.json" "bob.json" (some "page.json")
      ⟨editorsWithRoot, bob, page⟩ :=
    ⟨⟨_, rfl, written_editorsWithRoot⟩, hbob.subject, hbob.resource⟩
  refine ⟨hzero, hallow.mpr hzero, htwo, by decide +kernel, hsameKnown, ?_, ?_, ?_⟩
  · exact (hsame _ _ _ _ hbob hextended hsameKnown).trans htwo
  · obtain ⟨-, -, hone, -⟩ :=
      run_check_ends_with_decision wiki "wiki.toml" "eve.json" (some "page.json") "edit" false
    exact hone.mpr (.subject (.absent rfl))
  · obtain ⟨-, -, hone, -⟩ :=
      run_check_ends_with_decision wiki "notes.txt" "ann.json" (some "page.json") "edit" false
    exact hone.mpr (.policy (.unfit rfl hnotes))

end Command

end AccessPolicy
