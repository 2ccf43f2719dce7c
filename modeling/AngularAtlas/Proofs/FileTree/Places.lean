import AngularAtlas.Proofs.FileTree.Proper

namespace AngularAtlas.Entry

variable {e child new : Entry} {entries : List (String × Entry)} {name : String}
  {place names : Location} {content : ByteArray} {target : String}

/-- An entry without what is in it. -/
def shell : Entry → Entry
  | .directory _ => .directory []
  | .file content => .file content
  | .link target => .link target

/-- What is seen at a place, without what is in it. -/
def seen? (e : Entry) (place : Location) : Option Entry := (e.at? place).map shell

theorem seen?_eq_file_iff :
    e.seen? place = some (.file content) ↔ e.at? place = some (.file content) := by
  rw [seen?]
  rcases e.at? place with _ | _ | _ | _ <;> simp [shell]

theorem seen?_eq_link_iff :
    e.seen? place = some (.link target) ↔ e.at? place = some (.link target) := by
  rw [seen?]
  rcases e.at? place with _ | _ | _ | _ <;> simp [shell]

theorem seen?_eq_directory_iff :
    e.seen? place = some (.directory []) ↔ ∃ entries, e.at? place = some (.directory entries) := by
  rw [seen?]
  rcases e.at? place with _ | _ | _ | _ <;> simp [shell]

theorem seen?_eq_none_iff : e.seen? place = none ↔ e.at? place = none := by
  rw [seen?, Option.map_eq_none_iff]

theorem seen?_cons_of_child? (h : e.child? name = some child) (names : Location) :
    e.seen? (name :: names) = child.seen? names := by
  rw [seen?, at?, h, Option.bind_some, seen?]

theorem seen?_cons_of_missing (h : e.child? name = none) (names : Location) :
    e.seen? (name :: names) = none := by
  rw [seen?, at?, h]
  rfl

/-- There is nothing in an entry. -/
def IsBare (e : Entry) : Prop := e.shell = e

theorem IsBare.child?_eq_none (bare : e.IsBare) (name : String) : e.child? name = none := by
  cases e with
  | file | link => rfl
  | directory entries =>
    obtain rfl : [] = entries := by simpa [IsBare, shell] using bare
    rfl

/-- An entry can be put at a place: above it is a directory, and nothing or a file stands there. -/
structure Takes (e : Entry) (place : Location) : Prop where
  above : ∀ base name, place = base ++ [name] → ∃ entries, e.at? base = some (.directory entries)
  replaces : ∀ old, e.at? place = some old → ∃ content, old = .file content

theorem takes_of_missing (above : e.at? place = some (.directory entries))
    (missing : entries.lookup name = none) : e.Takes (place ++ [name]) where
  above base last same := by
    obtain ⟨rfl, -⟩ := List.append_inj' same rfl
    exact ⟨entries, above⟩
  replaces old here := by
    rw [at?_append, above] at here
    simp [at?, child?, missing] at here

theorem takes_of_file (here : e.at? place = some (.file content)) : e.Takes place where
  above _ _ same := exists_directory_of_at?_append (same ▸ here)
  replaces _ there := ⟨content, Option.some.inj (there.symm.trans here)⟩

theorem Takes.of_child? {rest : Location} (takes : e.Takes (name :: rest))
    (hc : e.child? name = some child) : child.Takes rest where
  above base last same := by
    have above := takes.above (name :: base) last (by rw [same]; rfl)
    rwa [at?, hc] at above
  replaces old here := takes.replaces old (by rw [at?, hc]; exact here)

theorem Takes.exists_directory {rest : Location} (takes : e.Takes (name :: rest)) :
    ∃ entries, e = .directory entries := by
  cases e with
  | directory entries => exact ⟨entries, rfl⟩
  | file | link =>
    obtain ⟨base, last, same⟩ := (List.eq_nil_or_concat' (name :: rest)).resolve_left
      (List.cons_ne_nil _ _)
    obtain ⟨entries, above⟩ := takes.above base last same
    cases base <;> simp [at?, child?] at above

/-- What is put at a place stands there. -/
theorem at?_put_self (e : Entry) (place : Location) (new : Entry) :
    (e.put place new).at? place = some new := by
  induction place generalizing e with
  | nil => rfl
  | cons name place ih =>
    unfold put
    simp only [at?, child?, Table.lookup_putEntry, if_true, Option.bind_some]
    exact ih _

theorem IsBare.seen?_cons (bare : e.IsBare) (name : String) (names : Location) :
    e.seen? (name :: names) = none := seen?_cons_of_missing (bare.child?_eq_none name) names

theorem Takes.seen?_cons (takes : e.Takes []) (name : String) (names : Location) :
    e.seen? (name :: names) = none := by
  obtain ⟨content, rfl⟩ := takes.replaces e rfl
  rfl

/-- Where an entry can be put, only the last name can be missing. -/
theorem Takes.eq_nil_of_missing {rest : Location} (takes : e.Takes (name :: rest))
    (missing : e.child? name = none) : rest = [] := by
  by_contra ne
  obtain ⟨base, last, rfl⟩ := (List.eq_nil_or_concat' rest).resolve_left ne
  obtain ⟨_, above⟩ := takes.above (name :: base) last rfl
  simp [at?, missing] at above

theorem seen?_put (takes : e.Takes place) (bare : new.IsBare) (names : Location) :
    (e.put place new).seen? names = if names = place then some new else e.seen? names := by
  induction place generalizing e names with
  | nil =>
    cases names with
    | nil => exact congrArg some bare
    | cons name names =>
      rw [if_neg (List.cons_ne_nil _ _), takes.seen?_cons]
      exact bare.seen?_cons name names
  | cons first rest ih =>
    obtain ⟨entries, rfl⟩ := takes.exists_directory
    cases names with
    | nil => rfl
    | cons name names =>
      have looked : ((directory entries).put (first :: rest) new).child? name =
          if name = first then
            some (((entries.lookup first).getD (.directory [])).put rest new)
          else entries.lookup name :=
        Table.lookup_putEntry _ _ _ _
      by_cases same : name = first
      · subst same
        rw [if_pos rfl] at looked
        rw [seen?_cons_of_child? looked]
        cases found : entries.lookup name with
        | some child =>
          have isChild : (directory entries).child? name = some child := found
          simpa [seen?_cons_of_child? isChild] using ih (takes.of_child? isChild) names
        | none =>
          have missing : (directory entries).child? name = none := found
          obtain rfl := takes.eq_nil_of_missing missing
          rw [seen?_cons_of_missing missing]
          cases names with
          | nil => exact (congrArg some bare).trans (if_pos rfl).symm
          | cons next names => simpa [put] using bare.seen?_cons next names
      · rw [if_neg same] at looked
        have other : ((directory entries).put (first :: rest) new).seen? (name :: names) =
            (directory entries).seen? (name :: names) := by
          rw [seen?, seen?, at?, at?, looked]
          rfl
        rw [other, if_neg (by simp [same])]

end AngularAtlas.Entry
