import AccessPolicy.Toml.Key

/-! Adding to TOML tables. What may be added depends on how a table came to be: a header opens a
table once, dotted keys add to the tables that dotted keys made, and a table in braces is complete.
-/

namespace AccessPolicy.Toml

/-- A table while entries are added to it. -/
structure Table where
  origin : Origin
  entries : List (String × Toml)

namespace Table

/-- The table as an item. -/
def toToml (t : Table) : Toml := .table t.origin t.entries

/-- What stands under a name. -/
def get? (t : Table) (name : String) : Option Toml := t.entries.lookup name

/-- Stores a value under a name, in place of the one that is there. -/
def set (t : Table) (name : String) (value : Toml) : Table :=
  { t with entries := (name, value) :: t.entries.filter (·.1 != name) }

/-- Whether a table on the way of a header, or of a dotted key, lets it pass. -/
def isOpen (dotted : Bool) : Origin → Bool
  | .header => !dotted
  | .implied | .dotted => true
  | .inline => false

/-- Changes the table at the end of a path. Tables that are missing on the way are made, by the
dotted key or the header that the path belongs to, and an array of tables leads to its last one. -/
def change? (dotted : Bool) (f : Table → Option Table) : List String → Table → Option Table
  | [], t => f t
  | name :: path, t => do
    let value ←
      match t.get? name with
      | none => (change? dotted f path ⟨if dotted then .dotted else .implied, []⟩).map toToml
      | some (.table origin entries) =>
        if isOpen dotted origin then (change? dotted f path ⟨origin, entries⟩).map toToml else none
      | some (.tables items) =>
        match items.getLast? with
        | some (.table origin entries) =>
          (change? dotted f path ⟨origin, entries⟩).map fun last =>
            .tables (items.dropLast ++ [last.toToml])
        | _ => none
      | some _ => none
    some (t.set name value)

/-- Adds an entry. Its name is new, and only a dotted key adds to a table that a dotted key made. -/
def add? (key : Key) (value : Toml) : Table → Option Table :=
  change? (!key.path.isEmpty) (fun t =>
    if (t.origin = .dotted) = (key.path = []) ∨ (t.get? key.name).isSome then none
    else some (t.set key.name value)) key.path

/-- Opens a table by its header; it may be there only because of the tables inside it. -/
def openTable? (key : Key) : Table → Option Table :=
  change? false (fun t =>
    match t.get? key.name with
    | none => some (t.set key.name (.table .header []))
    | some (.table .implied entries) => some (t.set key.name (.table .header entries))
    | some _ => none) key.path

/-- Opens one more table of an array by its header. -/
def openItem? (key : Key) : Table → Option Table :=
  change? false (fun t =>
    match t.get? key.name with
    | none => some (t.set key.name (.tables [.table .header []]))
    | some (.tables items) => some (t.set key.name (.tables (items ++ [.table .header []])))
    | some _ => none) key.path

/-- The table of entries that are written in braces. -/
def ofInline? (entries : List (Key × Toml)) : Option Table :=
  entries.foldlM (fun t (key, value) => t.add? key value) ⟨.inline, []⟩

end Table

end AccessPolicy.Toml
