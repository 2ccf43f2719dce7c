/-!
Tables: values by name, in the order of the names. A table holds one value for each of its
names.
-/

namespace AngularAtlas

/-- Puts a value among entries in the order of their names. The value of an entry with the same
name is replaced. -/
def putEntry {α : Type} (name : String) (value : α) : List (String × α) → List (String × α)
  | [] => [(name, value)]
  | entry :: rest =>
    if name < entry.1 then (name, value) :: entry :: rest
    else if name = entry.1 then (name, value) :: rest
    else entry :: putEntry name value rest

theorem mem_putEntry {α : Type} {name : String} {value : α} {entries : List (String × α)}
    {entry : String × α} (h : entry ∈ putEntry name value entries) :
    entry = (name, value) ∨ entry ∈ entries := by
  induction entries with
  | nil => simpa [putEntry] using h
  | cons e rest ih =>
    simp only [putEntry] at h
    split at h
    · simpa using h
    · split at h
      · rcases List.mem_cons.1 h with h | h
        · exact .inl h
        · exact .inr (List.mem_cons_of_mem _ h)
      · rcases List.mem_cons.1 h with h | h
        · exact .inr (h ▸ List.mem_cons_self)
        · exact (ih h).imp_right (List.mem_cons_of_mem _)

theorem pairwise_putEntry {α : Type} {name : String} {value : α} {entries : List (String × α)}
    (h : entries.Pairwise fun a b => a.1 < b.1) :
    (putEntry name value entries).Pairwise fun a b => a.1 < b.1 := by
  induction entries with
  | nil => simp [putEntry]
  | cons e rest ih =>
    obtain ⟨he, hrest⟩ := List.pairwise_cons.1 h
    simp only [putEntry]
    split
    case isTrue lt =>
      refine List.pairwise_cons.2 ⟨fun a ha => ?_, h⟩
      rcases List.mem_cons.1 ha with rfl | ha
      · exact lt
      · exact String.lt_trans lt (he a ha)
    case isFalse nlt =>
      split
      case isTrue eq => exact List.pairwise_cons.2 ⟨fun a ha => eq ▸ he a ha, hrest⟩
      case isFalse ne =>
        refine List.pairwise_cons.2 ⟨fun a ha => ?_, ih hrest⟩
        rcases mem_putEntry ha with rfl | ha
        · exact Decidable.byContradiction fun h =>
            ne (String.le_antisymm (String.not_lt.1 h) (String.not_lt.1 nlt))
        · exact he a ha

structure Table (α : Type) where
  entries : List (String × α)
  increasing : entries.Pairwise fun a b => a.1 < b.1

namespace Table

variable {α : Type}

def empty : Table α := ⟨[], .nil⟩

instance : Inhabited (Table α) := ⟨empty⟩

def get? (t : Table α) (name : String) : Option α := t.entries.lookup name

def contains (t : Table α) (name : String) : Bool := (t.get? name).isSome

def insert (t : Table α) (name : String) (value : α) : Table α :=
  ⟨putEntry name value t.entries, pairwise_putEntry t.increasing⟩

def modify (t : Table α) (name : String) (f : α → α) : Table α where
  entries := t.entries.map fun (n, v) => (n, if n = name then f v else v)
  increasing := List.pairwise_map.2 t.increasing

def names (t : Table α) : List String := t.entries.map (·.1)

def values (t : Table α) : List α := t.entries.map (·.2)

def isEmpty (t : Table α) : Bool := t.entries.isEmpty

def size (t : Table α) : Nat := t.entries.length

/-- The table of some entries; of several with one name the last counts. -/
def ofList (entries : List (String × α)) : Table α :=
  entries.foldl (fun t (name, value) => t.insert name value) empty

theorem names_increasing (t : Table α) : t.names.Pairwise (· < ·) :=
  List.pairwise_map.2 t.increasing

theorem lookup_cons_eq_ite (name : String) (entry : String × α) (rest : List (String × α)) :
    (entry :: rest).lookup name = if name = entry.1 then some entry.2 else rest.lookup name := by
  obtain ⟨other, value⟩ := entry
  rw [List.lookup_cons]
  by_cases h : name = other
  · simp [h]
  · simp [h, beq_false_of_ne h]

theorem lookup_of_mem {entries : List (String × α)} (distinct : (entries.map (·.1)).Nodup)
    {name : String} {value : α} (mem : (name, value) ∈ entries) :
    entries.lookup name = some value := by
  induction entries with
  | nil => cases mem
  | cons first entries ih =>
    obtain ⟨absent, distinct⟩ := List.nodup_cons.1 distinct
    rw [lookup_cons_eq_ite]
    rcases List.mem_cons.1 mem with rfl | mem
    · exact if_pos rfl
    · have differ : name ≠ first.1 := fun same => absent (List.mem_map.2 ⟨_, mem, same⟩)
      rw [if_neg differ, ih distinct mem]

theorem mem_of_lookup {entries : List (String × α)} {name : String} {value : α}
    (found : entries.lookup name = some value) : (name, value) ∈ entries := by
  obtain ⟨before, after, rfl, -⟩ := List.lookup_eq_some_iff.1 found
  exact List.mem_append_right _ List.mem_cons_self

theorem nodup_names (t : Table α) : t.names.Nodup :=
  t.names_increasing.imp fun lt => String.ne_of_lt lt

theorem mem_entries_iff {t : Table α} {name : String} {value : α} :
    (name, value) ∈ t.entries ↔ t.get? name = some value :=
  ⟨lookup_of_mem t.nodup_names, mem_of_lookup⟩

theorem mem_names_iff {t : Table α} {name : String} : name ∈ t.names ↔ (t.get? name).isSome := by
  rw [Option.isSome_iff_exists, names, List.mem_map]
  constructor
  · rintro ⟨⟨_, value⟩, mem, rfl⟩
    exact ⟨value, mem_entries_iff.1 mem⟩
  · rintro ⟨value, h⟩
    exact ⟨(name, value), mem_entries_iff.2 h, rfl⟩

theorem mem_values_iff {t : Table α} {value : α} :
    value ∈ t.values ↔ ∃ name, t.get? name = some value := by
  rw [values, List.mem_map]
  constructor
  · rintro ⟨⟨name, _⟩, mem, rfl⟩
    exact ⟨name, mem_entries_iff.1 mem⟩
  · rintro ⟨name, h⟩
    exact ⟨(name, value), mem_entries_iff.2 h, rfl⟩

theorem lookup_putEntry (name other : String) (value : α) (entries : List (String × α)) :
    (putEntry name value entries).lookup other =
      if other = name then some value else entries.lookup other := by
  induction entries with
  | nil => simp [putEntry, lookup_cons_eq_ite]
  | cons entry rest ih =>
    simp only [putEntry]
    split
    case isTrue => exact lookup_cons_eq_ite other (name, value) (entry :: rest)
    case isFalse =>
      split
      case isTrue hn =>
        rw [lookup_cons_eq_ite, lookup_cons_eq_ite, ← hn]
        split
        · rfl
        · rfl
      case isFalse hn =>
        rw [lookup_cons_eq_ite, ih, lookup_cons_eq_ite]
        by_cases he : other = entry.1
        · simp [he, Ne.symm hn]
        · simp [he]

theorem get?_insert (t : Table α) (name other : String) (value : α) :
    (t.insert name value).get? other = if other = name then some value else t.get? other :=
  lookup_putEntry name other value t.entries

theorem lookup_map_value (f : String → α → α) (name : String) (entries : List (String × α)) :
    (entries.map fun (n, v) => (n, f n v)).lookup name = (entries.lookup name).map (f name) := by
  induction entries with
  | nil => rfl
  | cons entry rest ih =>
    rw [List.map_cons, lookup_cons_eq_ite, lookup_cons_eq_ite, ih]
    by_cases he : name = entry.1
    · simp [he]
    · simp [he]

theorem get?_modify (t : Table α) (name other : String) (f : α → α) :
    (t.modify name f).get? other =
      if other = name then (t.get? other).map f else t.get? other := by
  refine (lookup_map_value (fun n v => if n = name then f v else v) other t.entries).trans ?_
  by_cases ho : other = name
  · simp [ho, get?]
  · simp [ho, get?]

@[simp] theorem names_modify (t : Table α) (name : String) (f : α → α) :
    (t.modify name f).names = t.names := by
  simp [names, modify]

end Table

end AngularAtlas
