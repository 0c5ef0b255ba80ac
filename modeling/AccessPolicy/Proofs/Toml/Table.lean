import AccessPolicy.Toml.Table

/-! Adding to TOML tables. A name that is new to a table gets its entry in front of the others, and
what is made under one name leaves the other names as they are. -/

namespace AccessPolicy.Toml.Table

variable {t : Table} {name : String} {value : Toml}

@[simp] theorem get?_set_self (t : Table) (name : String) (value : Toml) :
    (t.set name value).get? name = some value := by
  simp [set, get?]

theorem get?_eq_none_iff : t.get? name = none ↔ name ∉ t.entries.map (·.1) := by
  rw [get?, List.lookup_eq_none_iff, List.mem_map]
  constructor
  · rintro h ⟨e, he, rfl⟩
    simpa using h e he
  · intro h e he
    rw [bne_iff_ne]
    rintro rfl
    exact h ⟨e, he, rfl⟩

/-- A new name comes first, and nothing else changes. -/
theorem set_of_new (h : t.get? name = none) (value : Toml) :
    t.set name value = ⟨t.origin, (name, value) :: t.entries⟩ := by
  have hkeep : t.entries.filter (·.1 != name) = t.entries := by
    refine List.filter_eq_self.mpr fun e he => ?_
    rw [bne_iff_ne]
    rintro rfl
    exact get?_eq_none_iff.mp h (List.mem_map_of_mem he)
  rw [set, hkeep]

@[simp] theorem set_set (t : Table) (name : String) (value value' : Toml) :
    (t.set name value).set name value' = t.set name value' := by
  simp [set, List.filter_filter]

/-- An entry is added to a table that no dotted key made if its name is new. -/
theorem add?_eq (horigin : t.origin ≠ .dotted) (name : String) (value : Toml) :
    t.add? ⟨[], name⟩ value =
      if (t.get? name).isSome then none else some (t.set name value) := by
  simp [add?, change?, horigin]

/-- A change on the way to which there is a table that the way may pass. -/
theorem change?_cons_of_open {dotted : Bool} {f : Table → Option Table} {path : List String}
    {origin : Origin} {entries : List (String × Toml)}
    (h : t.get? name = some (.table origin entries)) (hopen : isOpen dotted origin = true) :
    t.change? dotted f (name :: path) =
      (change? dotted f path ⟨origin, entries⟩).map fun inner => t.set name inner.toToml := by
  simp only [change?, h, hopen, if_true]
  cases change? dotted f path ⟨origin, entries⟩ <;> rfl

/-! ### Headers -/

theorem openTable?_cons_of_open {first : String} {path : List String} {origin : Origin}
    {entries : List (String × Toml)} (h : t.get? first = some (.table origin entries))
    (hopen : isOpen false origin = true) :
    t.openTable? ⟨first :: path, name⟩ =
      (openTable? ⟨path, name⟩ ⟨origin, entries⟩).map fun inner => t.set first inner.toToml :=
  change?_cons_of_open h hopen

theorem openTable?_of_new (h : t.get? name = none) :
    t.openTable? ⟨[], name⟩ = some (t.set name (.table .header [])) := by
  simp only [openTable?, change?, h]

/-- A header does not open a table again. -/
theorem openTable?_of_header {entries : List (String × Toml)}
    (h : t.get? name = some (.table .header entries)) : t.openTable? ⟨[], name⟩ = none := by
  simp only [openTable?, change?, h]

end AccessPolicy.Toml.Table
