import AccessPolicy.Config.Toml
import AccessPolicy.Proofs.KeyMap
import AccessPolicy.Proofs.Toml.Document
import AccessPolicy.Proofs.Toml.Table

/-! Configurations as TOML documents. Each role has a header and the list of its rules, and under
the header of the hierarchy each parent has the list of its children; blank lines and comments may
stand anywhere. Such a document is read as the configuration with these rules and children, in
whatever order roles and parents come. One that names a role or a parent twice is a parse error, and
so is one that goes on after its lines with what is no line. -/

namespace AccessPolicy.Config

open Toml (Draft Line Statement Table ofStrings)

/-- Lists of strings under names, in the order of a document. -/
abbrev Listing : Type := List (String × List String)

/-- The names of a listing, in its order. -/
def names (l : Listing) : List String := l.map (·.1)

/-! ### What documents say -/

/-- The header of a role and its rules. -/
def roleStatements (e : String × List String) : List Statement :=
  [.table ⟨["policies"], e.1⟩, .entry ⟨[], "allow"⟩ (ofStrings e.2)]

/-- A parent and its children. -/
def parentStatements (e : String × List String) : List Statement :=
  [.entry ⟨[], e.1⟩ (ofStrings e.2)]

/-- The statements of the roles, then the header of the hierarchy with the parents. -/
def statements (policies hierarchy : Listing) : List Statement :=
  policies.flatMap roleStatements ++
    .table ⟨[], "hierarchy"⟩ :: hierarchy.flatMap parentStatements

/-- Lines that list these rules under roles and these children under parents. -/
structure Lists (lines : List Line) (policies hierarchy : Listing) : Prop where
  fits : ∀ line ∈ lines, line.Fits
  statements : lines.filterMap Line.statement? = statements policies hierarchy

section Lists

variable {lines : List Line} {policies hierarchy : Listing}

theorem Lists.blank (h : Lists lines policies hierarchy) :
    Lists (.blank :: lines) policies hierarchy where
  fits := List.forall_mem_cons.mpr ⟨trivial, h.fits⟩
  statements := h.statements

theorem Lists.comment {text : String} (htext : ∀ c ∈ text.toList, Toml.isPlain c = true)
    (h : Lists lines policies hierarchy) : Lists (.comment text :: lines) policies hierarchy where
  fits := List.forall_mem_cons.mpr ⟨htext, h.fits⟩
  statements := h.statements

end Lists

/-! ### Entries one after another -/

/-- The draft of some entries becomes that of one more by the statements of the new one, if its name
is new. The entry that was added last comes first. -/
def AddsEntry (draft : Listing → Draft) (statements : String × List String → List Statement) :
    Prop :=
  ∀ l e, (statements e).foldlM Draft.add? (draft l) =
    if e.1 ∈ names l then none else some (draft (e :: l))

/-- Entries with names of their own are added one after another, and a name that comes again ends
it. -/
theorem AddsEntry.foldlM {draft : Listing → Draft}
    {statements : String × List String → List Statement} (h : AddsEntry draft statements)
    (entries : Listing) {l : Listing} (hl : (names l).Nodup) :
    (entries.flatMap statements).foldlM Draft.add? (draft l) =
      if (names (entries.reverse ++ l)).Nodup then some (draft (entries.reverse ++ l))
      else none := by
  induction entries generalizing l with
  | nil =>
    rw [List.reverse_nil, List.nil_append, if_pos hl]
    rfl
  | cons e entries ih =>
    rw [List.flatMap_cons, List.foldlM_append, h, List.reverse_cons, List.append_assoc,
      List.singleton_append]
    by_cases hname : e.1 ∈ names l
    · have hagain : ¬(names (entries.reverse ++ e :: l)).Nodup := by
        rw [names, List.map_append, List.map_cons, List.nodup_append]
        exact fun hnodup => (List.nodup_cons.mp hnodup.2.1).1 hname
      rw [if_pos hname, if_neg hagain]
      rfl
    · rw [if_neg hname]
      exact ih (List.nodup_cons.mpr ⟨hname, hl⟩)

/-! ### Roles with their rules -/

/-- The table of a role. -/
def roleTable (allow : List String) : Toml := .table .header [("allow", ofStrings allow)]

/-- What stands under the names of a listing. -/
def entriesOf (value : List String → Toml) (l : Listing) : List (String × Toml) :=
  l.map fun e => (e.1, value e.2)

/-- A document with one table, which its headers have made. -/
def policiesRoot (roles : List (String × Toml)) : Table :=
  Table.set ⟨.header, []⟩ "policies" (.table .implied roles)

/-- A document after the roles of a listing. -/
def rolesDraft : Listing → Draft
  | [] => .start
  | e :: l => ⟨policiesRoot (entriesOf roleTable (e :: l)), ["policies", e.1]⟩

section EntriesOf

variable {value : List String → Toml} {origin : Toml.Origin} {l : Listing} {name : String}

theorem get?_entriesOf_of_new (h : name ∉ names l) :
    Table.get? ⟨origin, entriesOf value l⟩ name = none := by
  rw [Table.get?_eq_none_iff, entriesOf, List.map_map]
  exact h

theorem get?_entriesOf_of_mem (value : List String → Toml) (h : name ∈ names l) :
    ∃ items, Table.get? ⟨origin, entriesOf value l⟩ name = some (value items) := by
  induction l with
  | nil => cases h
  | cons e l ih =>
    show ∃ items, List.lookup name ((e.1, value e.2) :: entriesOf value l) = some (value items)
    rw [List.lookup_cons]
    by_cases heq : name = e.1
    · exact ⟨e.2, by simp [heq]⟩
    · obtain ⟨items, hitems⟩ := ih (List.mem_of_ne_of_mem heq h)
      rw [beq_eq_false_iff_ne.mpr heq]
      exact ⟨items, hitems⟩

/-- The table with one more entry. -/
theorem set_entriesOf_of_new (h : name ∉ names l) (v : Toml) :
    Table.set ⟨origin, entriesOf value l⟩ name v = ⟨origin, (name, v) :: entriesOf value l⟩ :=
  Table.set_of_new (get?_entriesOf_of_new h) v

end EntriesOf

/-- The header of a role opens a table for it, if it has none. -/
theorem openTable?_role (l : Listing) (role : String) :
    (rolesDraft l).root.openTable? ⟨["policies"], role⟩ =
      if role ∈ names l then none
      else some (policiesRoot ((role, .table .header []) :: entriesOf roleTable l)) := by
  have hinner : Table.openTable? ⟨[], role⟩ ⟨.implied, entriesOf roleTable l⟩ =
      if role ∈ names l then none
      else some ⟨.implied, (role, .table .header []) :: entriesOf roleTable l⟩ := by
    by_cases hrole : role ∈ names l
    · obtain ⟨allow, hallow⟩ := get?_entriesOf_of_mem roleTable hrole
      rw [if_pos hrole, Table.openTable?_of_header hallow]
    · rw [if_neg hrole, Table.openTable?_of_new (get?_entriesOf_of_new hrole),
        set_entriesOf_of_new hrole]
  cases l with
  | nil =>
    have hnone : role ∉ names [] := List.not_mem_nil
    rw [if_neg hnone]
    rfl
  | cons e l =>
    have hpolicies : (rolesDraft (e :: l)).root.get? "policies" =
        some (.table .implied (entriesOf roleTable (e :: l))) := Table.get?_set_self _ _ _
    rw [Table.openTable?_cons_of_open hpolicies rfl, hinner]
    split
    · rfl
    · exact congrArg some (Table.set_set _ _ _ _)

/-- The rules of a role are added to its table. -/
theorem change?_role {l : Listing} {role : String} (hrole : role ∉ names l) (allow : List String) :
    (policiesRoot ((role, .table .header []) :: entriesOf roleTable l)).change? false
        (·.add? ⟨[], "allow"⟩ (ofStrings allow)) ["policies", role] =
      some (policiesRoot (entriesOf roleTable ((role, allow) :: l))) := by
  have hpolicies : (policiesRoot ((role, .table .header []) :: entriesOf roleTable l)).get?
      "policies" = some (.table .implied ((role, .table .header []) :: entriesOf roleTable l)) :=
    Table.get?_set_self _ _ _
  have hadd : Table.change? false (·.add? ⟨[], "allow"⟩ (ofStrings allow)) [role]
      ⟨.implied, (role, .table .header []) :: entriesOf roleTable l⟩ =
      some ⟨.implied, entriesOf roleTable ((role, allow) :: l)⟩ := by
    rw [← set_entriesOf_of_new hrole,
      Table.change?_cons_of_open (Table.get?_set_self _ _ _) rfl]
    show some (Table.set (Table.set _ role _) role (roleTable allow)) = _
    rw [Table.set_set, set_entriesOf_of_new hrole]
    rfl
  rw [Table.change?_cons_of_open hpolicies rfl, hadd]
  exact congrArg some (Table.set_set _ _ _ _)

/-- Each role is added under a header of its own. -/
theorem addsEntry_roles : AddsEntry rolesDraft roleStatements := by
  intro l e
  rw [roleStatements, List.foldlM_cons, Draft.add?, openTable?_role]
  by_cases hrole : e.1 ∈ names l
  · rw [if_pos hrole, if_pos hrole]
    rfl
  · have hadd := change?_role hrole e.2
    rw [if_neg hrole, if_neg hrole]
    show (((policiesRoot _).change? false _ ["policies", e.1]).map _).bind _ = _
    rw [hadd]
    rfl

/-! ### Parents with their children -/

/-- A document with these other entries after the parents of a listing. -/
def parentsDraft (root : Table) (l : Listing) : Draft :=
  ⟨root.set "hierarchy" (.table .header (entriesOf ofStrings l)), ["hierarchy"]⟩

theorem addsEntry_parents (root : Table) : AddsEntry (parentsDraft root) parentStatements := by
  intro l e
  have hget : (parentsDraft root l).root.get? "hierarchy" =
      some (.table .header (entriesOf ofStrings l)) := Table.get?_set_self _ _ _
  have hadd : Table.add? ⟨[], e.1⟩ (ofStrings e.2) ⟨.header, entriesOf ofStrings l⟩ =
      if e.1 ∈ names l then none else some ⟨.header, entriesOf ofStrings (e :: l)⟩ := by
    rw [Table.add?_eq fun h => by cases h]
    by_cases hparent : e.1 ∈ names l
    · obtain ⟨items, hitems⟩ := get?_entriesOf_of_mem ofStrings hparent
      rw [if_pos hparent, hitems]
      rfl
    · rw [if_neg hparent, get?_entriesOf_of_new hparent, set_entriesOf_of_new hparent]
      rfl
  rw [parentStatements, List.foldlM_cons, Draft.add?]
  show (((parentsDraft root l).root.change? false _ ["hierarchy"]).map _).bind _ = _
  rw [Table.change?_cons_of_open hget rfl]
  show (((Table.add? ⟨[], e.1⟩ (ofStrings e.2) ⟨.header, _⟩).map _).map _).bind _ = _
  rw [hadd]
  split
  · rfl
  · show some (Draft.mk (Table.set (Table.set root "hierarchy" _) "hierarchy" _) _) = _
    rw [Table.set_set]
    rfl

/-! ### Documents as configurations -/

/-- The rules of each role, in the order of the map. -/
def roleListing (c : Config) : Listing := c.policies.toList.map fun e => (e.1, e.2.allow)

/-- The configuration that a listing of roles and one of parents make. -/
def ofListings (policies hierarchy : Listing) : Config :=
  ⟨.ofList (policies.map fun e => (e.1, ⟨e.2⟩)), ⟨.ofList hierarchy⟩⟩

/-- The draft after all statements of a document. -/
theorem foldlM_statements (policies hierarchy : Listing) :
    (statements policies hierarchy).foldlM Draft.add? .start =
      if (names policies).Nodup ∧ (names hierarchy).Nodup then
        some (parentsDraft (rolesDraft policies.reverse).root hierarchy.reverse)
      else none := by
  have hreverse : ∀ l : Listing, (names (l.reverse ++ [])).Nodup ↔ (names l).Nodup := by
    intro l
    rw [List.append_nil, names, List.map_reverse, List.nodup_reverse, names]
  have hroles := addsEntry_roles.foldlM policies (l := []) .nil
  have hopen : Draft.add? (rolesDraft policies.reverse) (.table ⟨[], "hierarchy"⟩) =
      some (parentsDraft (rolesDraft policies.reverse).root []) := by
    have hnew : (rolesDraft policies.reverse).root.get? "hierarchy" = none := by
      cases policies.reverse <;> rfl
    rw [Draft.add?, Table.openTable?_of_new hnew]
    rfl
  have hparents := (addsEntry_parents (rolesDraft policies.reverse).root).foldlM hierarchy
    (l := []) .nil
  rw [if_congr (hreverse policies) rfl rfl, List.append_nil] at hroles
  rw [if_congr (hreverse hierarchy) rfl rfl, List.append_nil] at hparents
  rw [statements, List.foldlM_append, show Draft.start = rolesDraft [] from rfl, hroles, ite_and]
  split
  · show (Draft.add? (rolesDraft policies.reverse) _).bind _ = _
    rw [hopen]
    exact hparents
  · rfl

theorem strings?_ofStrings (ss : List String) : (ofStrings ss).strings? = some ss := by
  show (ss.map Toml.string).mapM Toml.string? = some ss
  induction ss with
  | nil => rfl
  | cons s ss ih =>
    rw [List.map_cons, List.mapM_cons, ih]
    rfl

theorem ofToml?_roleTable (allow : List String) :
    RolePolicy.ofToml? (roleTable allow) = some ⟨allow⟩ := by
  show (ofStrings allow).strings?.map RolePolicy.mk = _
  rw [strings?_ofStrings]
  rfl

theorem keyMap?_entriesOf {α : Type} {value : Toml → Option α} {write : List String → Toml}
    {read : List String → α} (h : ∀ items, value (write items) = some (read items))
    (origin : Toml.Origin) (l : Listing) :
    (Toml.table origin (entriesOf write l)).keyMap? value =
      some (.ofList (l.map fun e => (e.1, read e.2))) := by
  have hentries : (entriesOf write l).mapM (fun e => (value e.2).map (e.1, ·)) =
      some (l.map fun e => (e.1, read e.2)) := by
    induction l with
    | nil => rfl
    | cons e l ih =>
      rw [entriesOf, List.map_cons, List.mapM_cons, h, ← entriesOf, ih]
      rfl
  rw [Toml.keyMap?, hentries]
  rfl

theorem ofToml?_hierarchy (hierarchy : Listing) :
    RoleHierarchy.ofToml? (.table .header (entriesOf ofStrings hierarchy)) =
      some ⟨.ofList hierarchy⟩ := by
  rw [RoleHierarchy.ofToml?, keyMap?_entriesOf strings?_ofStrings]
  simp

/-- A document of a hierarchy, and of policies if there are any. -/
theorem toToml_parentsDraft (policies hierarchy : Listing) :
    (parentsDraft (rolesDraft policies).root hierarchy).root.toToml =
      .table .header (("hierarchy", .table .header (entriesOf ofStrings hierarchy)) ::
        if policies = [] then []
        else [("policies", .table .implied (entriesOf roleTable policies))]) := by
  cases policies <;> rfl

theorem ofToml?_parentsDraft (policies hierarchy : Listing) :
    ofToml? (parentsDraft (rolesDraft policies).root hierarchy).root.toToml =
      some (ofListings policies hierarchy) := by
  have hpolicies := keyMap?_entriesOf ofToml?_roleTable .implied policies
  have hhierarchy := ofToml?_hierarchy hierarchy
  rw [toToml_parentsDraft]
  generalize Toml.table .header (entriesOf ofStrings hierarchy) = h at hhierarchy
  split
  · next hnil =>
    subst hnil
    show (RoleHierarchy.ofToml? h).bind _ = _
    rw [hhierarchy]
    rfl
  · generalize Toml.table .implied (entriesOf roleTable policies) = p at hpolicies
    show (p.keyMap? RolePolicy.ofToml?).bind (fun _ => (RoleHierarchy.ofToml? h).bind _) = _
    rw [hpolicies, hhierarchy]
    rfl

/-- A document is read if no role and no parent is named twice, and then as the configuration that
its lists make. -/
theorem parseToml_of_lists {lines : List Line} {policies hierarchy : Listing}
    (h : Lists lines policies hierarchy) :
    parseToml (String.ofList (lines.flatMap Line.print)) =
      if (names policies).Nodup ∧ (names hierarchy).Nodup then
        .ok (ofListings policies.reverse hierarchy.reverse)
      else .error (.parse .toml) := by
  rw [parseToml, Toml.parse?_lines h.fits, h.statements, foldlM_statements]
  by_cases hnodup : (names policies).Nodup ∧ (names hierarchy).Nodup
  · rw [if_pos hnodup, if_pos hnodup, Option.map_some, Option.bind_some, ofToml?_parentsDraft]
  · rw [if_neg hnodup, if_neg hnodup]
    rfl

/-! ### Reading back what is written -/

theorem roleListing_ofListings {policies : Listing} (hp : (names policies).Nodup)
    (hierarchy : Listing) : policies.Perm (ofListings policies hierarchy).roleListing := by
  have hkeys : ((policies.map fun e => (e.1, RolePolicy.mk e.2)).map (·.1)).Nodup := by
    rw [List.map_map]
    exact hp
  have hperm := (KeyMap.perm_toList_ofList hkeys).map fun e => (e.1, e.2.allow)
  rw [List.map_map] at hperm
  exact (List.Perm.of_eq (List.map_id policies).symm).trans hperm

theorem policies_eq_ofList {policies : Listing} {c : Config} (h : policies.Perm c.roleListing) :
    KeyMap.ofList (policies.map fun e => (e.1, RolePolicy.mk e.2)) = c.policies := by
  have hperm := h.map fun e => (e.1, RolePolicy.mk e.2)
  rw [roleListing, List.map_map] at hperm
  exact KeyMap.ofList_eq_of_perm (hperm.trans (.of_eq (List.map_id c.policies.toList)))

/-- Listings without repeated names make the configuration that has their entries. -/
theorem ofListings_eq_iff {policies hierarchy : Listing} (hp : (names policies).Nodup)
    (hh : (names hierarchy).Nodup) {c : Config} :
    ofListings policies hierarchy = c ↔
      policies.Perm c.roleListing ∧ hierarchy.Perm c.hierarchy.edges.toList := by
  constructor
  · rintro rfl
    exact ⟨roleListing_ofListings hp hierarchy, KeyMap.perm_toList_ofList hh⟩
  · rintro ⟨hpolicies, hhierarchy⟩
    rw [ofListings, policies_eq_ofList hpolicies, KeyMap.ofList_eq_of_perm hhierarchy]

theorem nodup_names_congr {l l' : Listing} (h : l.Perm l') : (names l).Nodup ↔ (names l').Nodup :=
  (h.map Prod.fst).nodup_iff

theorem nodup_names_of_perm {policies hierarchy : Listing} {c : Config}
    (hp : policies.Perm c.roleListing) (hh : hierarchy.Perm c.hierarchy.edges.toList) :
    (names policies).Nodup ∧ (names hierarchy).Nodup := by
  have hroles : (names c.roleListing).Nodup := by
    rw [names, roleListing, List.map_map]
    exact c.policies.nodup_keys
  have hparents : (names c.hierarchy.edges.toList).Nodup := c.hierarchy.edges.nodup_keys
  exact ⟨(nodup_names_congr hp).mpr hroles, (nodup_names_congr hh).mpr hparents⟩

/-- A document is read as the configuration with exactly the rules of its roles and the children of
its parents, in whatever order it lists them. -/
theorem parseToml_eq_ok_iff {lines : List Line} {policies hierarchy : Listing}
    (h : Lists lines policies hierarchy) {c : Config} :
    parseToml (String.ofList (lines.flatMap Line.print)) = .ok c ↔
      policies.Perm c.roleListing ∧ hierarchy.Perm c.hierarchy.edges.toList := by
  rw [parseToml_of_lists h]
  by_cases hnodup : (names policies).Nodup ∧ (names hierarchy).Nodup
  · have hreverse : ∀ {l : Listing}, (names l).Nodup → (names l.reverse).Nodup := by
      intro l hl
      rw [names, List.map_reverse, List.nodup_reverse]
      exact hl
    rw [if_pos hnodup, Except.ok.injEq,
      ofListings_eq_iff (hreverse hnodup.1) (hreverse hnodup.2)]
    exact and_congr ((List.reverse_perm _).congr_left _) ((List.reverse_perm _).congr_left _)
  · rw [if_neg hnodup]
    constructor
    · rintro ⟨⟩
    · exact fun hperm => absurd (nodup_names_of_perm hperm.1 hperm.2) hnodup

/-- A document that names a role or a parent twice is a parse error. -/
theorem parseToml_eq_error {lines : List Line} {policies hierarchy : Listing}
    (h : Lists lines policies hierarchy)
    (hnodup : ¬((names policies).Nodup ∧ (names hierarchy).Nodup)) :
    parseToml (String.ofList (lines.flatMap Line.print)) = .error (.parse .toml) := by
  rw [parseToml_of_lists h, if_neg hnodup]

/-- A text that goes on with a character that starts no line is a parse error, whatever lines stand
before it. -/
theorem parseToml_of_startsNothing {lines : List Line} (hlines : ∀ line ∈ lines, line.Fits)
    {c : Char} (hc : Toml.StartsNothing c) (r : List Char) :
    parseToml (String.ofList (lines.flatMap Line.print ++ c :: r)) = .error (.parse .toml) := by
  rw [parseToml, Toml.parse?_of_startsNothing hlines hc r]
  rfl

/-! ### A document for each configuration -/

/-- The lines of a role, with a blank one after them. -/
def roleLines (e : String × List String) : List Line :=
  [.header ⟨["policies"], e.1⟩, .entry ⟨[], "allow"⟩ e.2, .blank]

/-- The lines of all roles, then those of the hierarchy. -/
def tomlLines (c : Config) : List Line :=
  c.roleListing.flatMap roleLines ++ .header ⟨[], "hierarchy"⟩ ::
    c.hierarchy.edges.toList.map fun e => .entry ⟨[], e.1⟩ e.2

theorem lists_tomlLines (c : Config) :
    Lists c.tomlLines c.roleListing c.hierarchy.edges.toList where
  fits line hline := by
    rcases List.mem_append.mp hline with hline | hline
    · obtain ⟨e, -, hline⟩ := List.mem_flatMap.mp hline
      rcases hline with - | ⟨_, - | ⟨_, - | ⟨_, ⟨⟩⟩⟩⟩
      all_goals simp [Line.Fits, Toml.maxPathLength]
    · rcases List.mem_cons.mp hline with rfl | hline
      · simp [Line.Fits]
      · obtain ⟨e, -, rfl⟩ := List.mem_map.mp hline
        simp [Line.Fits]
  statements := by
    have hroles : (c.roleListing.flatMap roleLines).filterMap Line.statement? =
        c.roleListing.flatMap roleStatements := by
      rw [List.filterMap_flatMap]
      rfl
    have hparents : (c.hierarchy.edges.toList.map fun e => Line.entry ⟨[], e.1⟩ e.2).filterMap
        Line.statement? = c.hierarchy.edges.toList.flatMap parentStatements := by
      rw [List.filterMap_map, List.filterMap_eq_flatMap_toList]
      rfl
    rw [tomlLines, List.filterMap_append, hroles]
    exact congrArg _ (congrArg _ hparents)

/-- Every configuration is read back from the document that is written for it. -/
theorem parseToml_tomlLines (c : Config) :
    parseToml (String.ofList (c.tomlLines.flatMap Line.print)) = .ok c :=
  (parseToml_eq_ok_iff c.lists_tomlLines).mpr ⟨.refl _, .refl _⟩

end AccessPolicy.Config
