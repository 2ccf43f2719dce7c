import AngularAtlas.FileTree
import Mathlib.Data.List.Basic

namespace AngularAtlas

/-- A name that an entry of a directory can have. -/
structure IsName (name : String) : Prop where
  ne_empty : name ≠ ""
  no_slash : '/' ∉ name.toList

instance (name : String) : Decidable (IsName name) :=
  decidable_of_iff (name ≠ "" ∧ '/' ∉ name.toList) ⟨fun h => ⟨h.1, h.2⟩, fun h => ⟨h.1, h.2⟩⟩

namespace Entry

inductive Proper : Entry → Prop
  | file (content : ByteArray) : Proper (.file content)
  | link (target : String) : Proper (.link target)
  | directory {entries : List (String × Entry)} :
      (entries.Pairwise fun a b => a.1 < b.1) → (∀ entry ∈ entries, IsName entry.1) →
      (∀ entry ∈ entries, Proper entry.2) → Proper (.directory entries)

variable {e new child : Entry} {entries : List (String × Entry)} {name : String}
  {names : List String}

theorem Proper.increasing (h : Proper (.directory entries)) :
    entries.Pairwise fun a b => a.1 < b.1 := by
  cases h
  assumption

theorem Proper.isName (h : Proper (.directory entries)) : ∀ entry ∈ entries, IsName entry.1 := by
  cases h
  assumption

theorem Proper.proper (h : Proper (.directory entries)) : ∀ entry ∈ entries, Proper entry.2 := by
  cases h
  assumption

/-- What is listed under a name is what is looked up under it. -/
theorem Proper.mem_iff (h : Proper (.directory entries)) :
    (name, child) ∈ entries ↔ entries.lookup name = some child :=
  Table.mem_entries_iff (t := ⟨entries, h.increasing⟩)

theorem exists_of_child? (h : e.child? name = some child) :
    ∃ entries, e = .directory entries ∧ entries.lookup name = some child := by
  cases e with
  | directory entries => exact ⟨entries, rfl, h⟩
  | file | link => cases h

/-- Only in a directory does anything stand. -/
theorem exists_directory_of_at?_append (found : e.at? (names ++ [name]) = some child) :
    ∃ entries, e.at? names = some (.directory entries) := by
  rw [at?_append] at found
  obtain ⟨above, here, found⟩ := Option.bind_eq_some_iff.1 found
  obtain ⟨_, found, -⟩ := Option.bind_eq_some_iff.1 found
  obtain ⟨entries, rfl, -⟩ := exists_of_child? found
  exact ⟨entries, here⟩

theorem Proper.of_child? (h : e.Proper) (hc : e.child? name = some child) :
    IsName name ∧ child.Proper := by
  obtain ⟨entries, rfl, found⟩ := exists_of_child? hc
  have mem := h.mem_iff.2 found
  exact ⟨h.isName _ mem, h.proper _ mem⟩

/-- All names that lead to an entry are proper, and so is the entry. -/
theorem Proper.of_at? (h : e.Proper) (found : e.at? names = some child) :
    (∀ name ∈ names, IsName name) ∧ child.Proper := by
  induction names generalizing e with
  | nil =>
    obtain rfl := Option.some.inj found
    exact ⟨List.forall_mem_nil _, h⟩
  | cons name names ih =>
    obtain ⟨next, here, below⟩ := Option.bind_eq_some_iff.1 found
    obtain ⟨isName, proper⟩ := h.of_child? here
    obtain ⟨isNames, last⟩ := ih proper below
    exact ⟨List.forall_mem_cons.2 ⟨isName, isNames⟩, last⟩

theorem proper_empty : Proper (.directory []) :=
  .directory .nil (List.forall_mem_nil _) (List.forall_mem_nil _)

theorem Proper.put (h : e.Proper) (isNames : ∀ name ∈ names, IsName name) (hn : new.Proper) :
    (e.put names new).Proper := by
  induction names generalizing e with
  | nil => exact hn
  | cons name names ih =>
    obtain ⟨isName, isNames⟩ := List.forall_mem_cons.1 isNames
    -- a directory keeps its other entries, and anything else is replaced by a directory
    have below : ∀ {entries : List (String × Entry)}, Proper (.directory entries) →
        Proper (.directory (putEntry name
          (((entries.lookup name).getD (.directory [])).put names new) entries)) := by
      intro entries proper
      have put : (((entries.lookup name).getD (.directory [])).put names new).Proper := by
        cases found : entries.lookup name with
        | none => exact ih proper_empty isNames
        | some child => exact ih (proper.of_child? found).2 isNames
      refine .directory (pairwise_putEntry proper.increasing) ?_ ?_
      · intro entry mem
        rcases mem_putEntry mem with rfl | mem
        · exact isName
        · exact proper.isName entry mem
      · intro entry mem
        rcases mem_putEntry mem with rfl | mem
        · exact put
        · exact proper.proper entry mem
    cases e with
    | directory entries => exact below h
    | file | link => exact below proper_empty

end Entry

namespace Location

variable {a b : Location}

theorem toList_path (location : Location) :
    location.path.toList = '/' :: ['/'].intercalate (location.map String.toList) := by
  simp [Location.path, String.toList_intercalate]

/-- The names of a place can be read off its path. -/
theorem splitOn_path (isNames : ∀ name ∈ a, IsName name) :
    (a.path.toList.tail.splitOn '/').map String.ofList = if a = [] then [""] else a := by
  rw [toList_path, List.tail_cons]
  split
  case isTrue empty =>
    rw [empty]
    rfl
  case isFalse ne =>
    rw [List.splitOn_intercalate, List.map_map]
    · simp
    · intro piece mem
      obtain ⟨name, hname, rfl⟩ := List.mem_map.1 mem
      exact (isNames name hname).no_slash
    · simpa using ne

theorem eq_of_path_eq (ha : ∀ name ∈ a, IsName name) (hb : ∀ name ∈ b, IsName name)
    (same : a.path = b.path) : a = b := by
  have pieces := splitOn_path ha
  rw [same, splitOn_path hb] at pieces
  have single : ∀ {l : Location}, (∀ name ∈ l, IsName name) → l ≠ [""] := by
    rintro _ hl rfl
    exact (hl "" (List.mem_singleton_self _)).ne_empty rfl
  split at pieces <;> split at pieces
  · simp_all
  · exact absurd pieces.symm (single ha)
  · exact absurd pieces (single hb)
  · exact pieces.symm

end Location

end AngularAtlas
