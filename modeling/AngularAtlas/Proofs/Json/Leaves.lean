import AngularAtlas.Json.Dotted
import Mathlib.Data.List.Nodup

/-!
The leaves of an object and where its dotted names lead. Main statement: where no name is empty or
has a dot in it, each leaf is listed once, under the dotted name that leads to it, and nothing else
that a dotted name leads to is a leaf.
-/

namespace AngularAtlas.Json

variable {v value : Json} {fields : List (String × Json)} {names path more : List String}
  {key : String}

/-- A name that can stand between dots. -/
def IsPlainName (name : String) : Prop := name ≠ "" ∧ '.' ∉ name.toList

def IsLeaf : Json → Prop
  | .object _ => False
  | _ => True

/-- All names are plain, and no two fields of an object have the same name. -/
inductive Proper : Json → Prop
  | object {fields : List (String × Json)} : (fields.map (·.1)).Nodup →
      (∀ field ∈ fields, IsPlainName field.1) → (∀ field ∈ fields, Proper field.2) →
      Proper (.object fields)
  | leaf {value : Json} : value.IsLeaf → Proper value

theorem proper_object_iff : (Json.object fields).Proper ↔ (fields.map (·.1)).Nodup ∧
    (∀ field ∈ fields, IsPlainName field.1) ∧ ∀ field ∈ fields, field.2.Proper := by
  constructor
  · rintro (⟨distinct, plain, proper⟩ | leaf)
    · exact ⟨distinct, plain, proper⟩
    · exact leaf.elim
  · rintro ⟨distinct, plain, proper⟩
    exact .object distinct plain proper

theorem intercalate_eq_empty_iff (plain : ∀ name ∈ names, IsPlainName name) :
    ".".intercalate names = "" ↔ names = [] := by
  cases names with
  | nil => simp
  | cons name names =>
    have ne : name ≠ "" := (plain name List.mem_cons_self).1
    cases names with
    | nil => simpa using ne
    | cons next names => simp [String.intercalate_cons_cons, ne]

theorem dotted_intercalate (plain : ∀ name ∈ names, IsPlainName name) (key : String) :
    dotted (".".intercalate names) key = ".".intercalate (names ++ [key]) := by
  simp only [dotted, intercalate_eq_empty_iff plain]
  by_cases ne : names = []
  · simp [ne]
  · rw [if_neg ne, String.intercalate_append_of_ne_nil ne (List.cons_ne_nil _ _),
      String.intercalate_singleton]

theorem namePieces_intercalate (plain : ∀ name ∈ names, IsPlainName name) (ne : names ≠ []) :
    namePieces (".".intercalate names) = names := by
  have apart : ∀ piece ∈ names.map String.toList, '.' ∉ piece := by
    intro piece mem
    obtain ⟨name, hn, rfl⟩ := List.mem_map.1 mem
    exact (plain name hn).2
  have pieces : (['.'].intercalate (names.map String.toList)).splitOn '.' =
      names.map String.toList := List.splitOn_intercalate '.' apart (by simpa using ne)
  rw [namePieces, String.toList_intercalate]
  change ((['.'].intercalate (names.map String.toList)).splitOn '.').map String.ofList = names
  rw [pieces]
  simp

theorem intercalate_namePieces (key : String) : ".".intercalate (namePieces key) = key := by
  rw [← String.toList_inj, String.toList_intercalate, namePieces]
  simp

theorem eq_of_intercalate_eq (plain : ∀ name ∈ path, IsPlainName name)
    (plain' : ∀ name ∈ more, IsPlainName name)
    (same : ".".intercalate path = ".".intercalate more) : path = more := by
  by_cases empty : path = []
  · rw [empty, String.intercalate_nil, eq_comm, intercalate_eq_empty_iff plain'] at same
    rw [empty, same]
  · have other : more ≠ [] := by
      rw [ne_eq, ← intercalate_eq_empty_iff plain', ← same, intercalate_eq_empty_iff plain]
      exact empty
    rw [← namePieces_intercalate plain empty, same, namePieces_intercalate plain' other]

theorem exists_of_mem_sortedFields {field : String × Json} (mem : field ∈ sortedFields fields) :
    ∃ child, (field.1, child) ∈ fields ∧ field.2 = child.sorted := by
  induction fields with
  | nil => simp [sortedFields] at mem
  | cons first fields ih =>
    obtain ⟨name, child⟩ := first
    rw [sortedFields] at mem
    rcases mem_putEntry mem with rfl | mem
    · exact ⟨child, List.mem_cons_self, rfl⟩
    · obtain ⟨child, there, eq⟩ := ih mem
      exact ⟨child, List.mem_cons_of_mem _ there, eq⟩

theorem pairwise_sortedFields (fields : List (String × Json)) :
    (sortedFields fields).Pairwise fun a b => a.1 < b.1 := by
  induction fields with
  | nil => exact .nil
  | cons first fields ih => exact pairwise_putEntry ih

theorem lookup_sortedFields (fields : List (String × Json)) (key : String) :
    (sortedFields fields).lookup key = (fields.lookup key).map sorted := by
  induction fields with
  | nil => rfl
  | cons first fields ih =>
    obtain ⟨name, child⟩ := first
    rw [sortedFields, Table.lookup_putEntry, Table.lookup_cons_eq_ite, ih]
    by_cases same : key = name <;> simp [same]

theorem IsLeaf.sorted (leaf : v.IsLeaf) : v.sorted.IsLeaf := by
  cases v <;> simp_all [IsLeaf, Json.sorted]

theorem Proper.sorted (proper : v.Proper) : v.sorted.Proper := by
  induction proper with
  | leaf leaf => exact .leaf leaf.sorted
  | @object fields _ plain _ ih =>
    rw [Json.sorted]
    refine .object ?_ ?_ ?_
    · refine (List.pairwise_map.2 (pairwise_sortedFields fields)).imp ?_
      rintro a _ lt rfl
      exact String.lt_irrefl a lt
    · intro field mem
      obtain ⟨child, there, -⟩ := exists_of_mem_sortedFields mem
      exact plain (field.1, child) there
    · intro field mem
      obtain ⟨child, there, eq⟩ := exists_of_mem_sortedFields mem
      exact eq ▸ ih _ there

theorem at?_sorted (v : Json) (path : List String) :
    v.sorted.at? path = (v.at? path).map sorted := by
  induction path generalizing v with
  | nil => rfl
  | cons key path ih =>
    have field : v.sorted.field? key = (v.field? key).map sorted := by
      cases v with
      | object fields => exact lookup_sortedFields fields key
      | _ => rfl
    rw [at?, at?, field]
    cases v.field? key with
    | none => rfl
    | some child => exact ih child

theorem at?_cons_of_isLeaf (leaf : v.IsLeaf) (name : String) (path : List String) :
    v.at? (name :: path) = none := by
  cases v with
  | object => exact leaf.elim
  | _ => rfl

theorem fieldLeaves_eq (name : String) (fields : List (String × Json)) :
    fieldLeaves name fields =
      fields.flatMap fun field => field.2.leavesBelow (dotted name field.1) := by
  induction fields with
  | nil => rfl
  | cons field fields ih => rw [fieldLeaves, ih, List.flatMap_cons]

theorem leavesBelow_of_isLeaf (leaf : v.IsLeaf) (name : String) :
    v.leavesBelow name = [(name, v)] := by
  cases v <;> simp_all [IsLeaf, leavesBelow]

theorem Proper.exists_of_mem_leavesBelow (proper : v.Proper)
    (plain : ∀ name ∈ names, IsPlainName name)
    (mem : (key, value) ∈ v.leavesBelow (".".intercalate names)) :
    ∃ path, key = ".".intercalate (names ++ path) ∧ (∀ name ∈ path, IsPlainName name) ∧
      v.at? path = some value ∧ value.IsLeaf := by
  induction proper generalizing names with
  | leaf leaf =>
    rw [leavesBelow_of_isLeaf leaf, List.mem_singleton] at mem
    obtain ⟨rfl, rfl⟩ := Prod.mk.inj mem
    exact ⟨[], by rw [List.append_nil], by simp, rfl, leaf⟩
  | @object fields distinct plainFields _ ih =>
    rw [leavesBelow, fieldLeaves_eq] at mem
    obtain ⟨field, there, mem⟩ := List.mem_flatMap.1 mem
    rw [dotted_intercalate plain] at mem
    have here := plainFields field there
    have plain' : ∀ name ∈ names ++ [field.1], IsPlainName name :=
      List.forall_mem_append.2 ⟨plain, List.forall_mem_singleton.2 here⟩
    obtain ⟨path, rfl, plainPath, found, leaf⟩ := ih field there plain' mem
    refine ⟨field.1 :: path, by rw [List.append_assoc]; rfl, ?_, ?_, leaf⟩
    · exact List.forall_mem_cons.2 ⟨here, plainPath⟩
    · rw [at?, field?, Table.lookup_of_mem distinct there]
      exact found

/-- A leaf of an object is found under its dotted name. -/
theorem Proper.lookup?_of_mem_leaves (proper : v.Proper) (object : ¬ v.IsLeaf)
    (mem : (key, value) ∈ v.leaves) :
    key = ".".intercalate (namePieces key) ∧ v.lookup? key = some value ∧ value.IsLeaf := by
  obtain ⟨path, rfl, plain, found, leaf⟩ := proper.exists_of_mem_leavesBelow
    (List.forall_mem_nil _) (by simpa [leaves] using mem)
  have ne : path ≠ [] := by
    rintro rfl
    obtain rfl := Option.some.inj found
    exact object leaf
  rw [List.nil_append, lookup?, namePieces_intercalate plain ne]
  exact ⟨rfl, found, leaf⟩

/-- What stands at the end of some names is listed if it is a leaf. -/
theorem Proper.mem_leavesBelow (proper : v.Proper) (plain : ∀ name ∈ names, IsPlainName name)
    (found : v.at? path = some value) (leaf : value.IsLeaf) :
    (".".intercalate (names ++ path), value) ∈ v.leavesBelow (".".intercalate names) := by
  induction proper generalizing names path with
  | @leaf v here =>
    cases path with
    | nil =>
      obtain rfl := Option.some.inj found
      rw [List.append_nil, leavesBelow_of_isLeaf leaf]
      exact List.mem_singleton_self _
    | cons name path =>
      rw [at?_cons_of_isLeaf here] at found
      cases found
  | @object fields _ plainFields _ ih =>
    cases path with
    | nil =>
      obtain rfl := Option.some.inj found
      exact leaf.elim
    | cons name path =>
      obtain ⟨child, field, found⟩ := Option.bind_eq_some_iff.1 found
      have there := Table.mem_of_lookup field
      have here := plainFields _ there
      have plainBelow : ∀ other ∈ names ++ [name], IsPlainName other :=
        List.forall_mem_append.2 ⟨plain, List.forall_mem_singleton.2 here⟩
      have below := ih _ there plainBelow found
      rw [List.append_assoc] at below
      rw [leavesBelow, fieldLeaves_eq]
      refine List.mem_flatMap.2 ⟨(name, child), there, ?_⟩
      rw [dotted_intercalate plain]
      exact below

theorem Proper.nodup_leavesBelow (proper : v.Proper)
    (plain : ∀ name ∈ names, IsPlainName name) :
    ((v.leavesBelow (".".intercalate names)).map (·.1)).Nodup := by
  induction proper generalizing names with
  | leaf leaf =>
    rw [leavesBelow_of_isLeaf leaf]
    exact List.nodup_singleton _
  | @object fields distinct plainFields proper ih =>
    rw [leavesBelow, fieldLeaves_eq, List.map_flatMap, List.nodup_flatMap]
    have plainBelow : ∀ field ∈ fields, ∀ name ∈ names ++ [field.1], IsPlainName name :=
      fun field mem => List.forall_mem_append.2
        ⟨plain, List.forall_mem_singleton.2 (plainFields field mem)⟩
    simp only [dotted_intercalate plain]
    refine ⟨fun field mem => ih field mem (plainBelow field mem), ?_⟩
    refine (List.pairwise_map.1 distinct).imp_of_mem fun {a b} ha hb differ key ka kb => ?_
    -- a key that stands below two fields would start with the names of both
    obtain ⟨⟨_, first⟩, inFirst, rfl⟩ := List.mem_map.1 ka
    obtain ⟨⟨_, second⟩, inSecond, same⟩ := List.mem_map.1 kb
    obtain ⟨path, rfl, plainPath, -⟩ :=
      (proper a ha).exists_of_mem_leavesBelow (plainBelow a ha) inFirst
    obtain ⟨more, rfl, plainMore, -⟩ :=
      (proper b hb).exists_of_mem_leavesBelow (plainBelow b hb) inSecond
    have all := eq_of_intercalate_eq
      (List.forall_mem_append.2 ⟨plainBelow b hb, plainMore⟩)
      (List.forall_mem_append.2 ⟨plainBelow a ha, plainPath⟩) same
    simp only [List.append_assoc, List.append_cancel_left_eq, List.singleton_append] at all
    exact differ (List.cons.inj all).1.symm

/-- What stands at the end of some names in an object with plain names only has plain names. -/
theorem Proper.isPlainName_of_at? (proper : v.Proper) (found : v.at? path = some value) :
    ∀ name ∈ path, IsPlainName name := by
  induction path generalizing v with
  | nil => exact List.forall_mem_nil _
  | cons name path ih =>
    cases proper with
    | leaf leaf =>
      rw [at?_cons_of_isLeaf leaf] at found
      cases found
    | object _ plain proper =>
      obtain ⟨child, field, found⟩ := Option.bind_eq_some_iff.1 found
      have there := Table.mem_of_lookup field
      exact List.forall_mem_cons.2 ⟨plain _ there, ih (proper _ there) found⟩

/-- The leaves of an object are listed under their dotted names. -/
structure ListsLeaves (v : Json) (listed : List (String × Json)) : Prop where
  /-- Each dotted name is listed once. -/
  once : (listed.map (·.1)).Nodup
  /-- What is listed are the values at the ends of paths that are no objects. -/
  mem_iff : ∀ {key value}, (key, value) ∈ listed ↔
    ∃ path, key = ".".intercalate path ∧ v.at? path = some value ∧ value.IsLeaf
  /-- No two paths to leaves have the same dotted name. -/
  path_unique : ∀ {path path' value value'}, v.at? path = some value → value.IsLeaf →
    v.at? path' = some value' → value'.IsLeaf →
    ".".intercalate path = ".".intercalate path' → path = path'
  /-- A dotted name that is listed leads to the value listed with it. -/
  found : ∀ {key value}, (key, value) ∈ listed → v.lookup? key = some value
  /-- A dotted name that is not listed leads to an object or nowhere. -/
  complete : ∀ {key value}, v.lookup? key = some value → value.IsLeaf → (key, value) ∈ listed

theorem Proper.listsLeaves (proper : v.Proper) (object : ¬ v.IsLeaf) : v.ListsLeaves v.leaves := by
  have mem_of_at? : ∀ {path value}, v.at? path = some value → value.IsLeaf →
      (".".intercalate path, value) ∈ v.leaves := by
    intro path value found leaf
    have below := proper.mem_leavesBelow (List.forall_mem_nil IsPlainName) found leaf
    simpa [leaves] using below
  refine ⟨?_, ⟨fun mem => ?_, ?_⟩, fun found _ found' _ same => ?_,
    fun mem => (proper.lookup?_of_mem_leaves object mem).2.1, ?_⟩
  · have nodup := proper.nodup_leavesBelow (List.forall_mem_nil IsPlainName)
    rwa [String.intercalate_nil] at nodup
  · obtain ⟨pieces, found, leaf⟩ := proper.lookup?_of_mem_leaves object mem
    exact ⟨_, pieces, found, leaf⟩
  · rintro ⟨path, rfl, found, leaf⟩
    exact mem_of_at? found leaf
  · exact eq_of_intercalate_eq (proper.isPlainName_of_at? found)
      (proper.isPlainName_of_at? found') same
  · intro key value found leaf
    have mem := mem_of_at? found leaf
    rwa [intercalate_namePieces] at mem

end AngularAtlas.Json
