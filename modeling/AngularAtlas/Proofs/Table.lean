import AngularAtlas.Table
import Mathlib.Data.List.Sort
import Mathlib.Data.String.Basic

namespace AngularAtlas

namespace Table

variable {α : Type} {t u : Table α}

theorem ext_get? (h : ∀ name, t.get? name = u.get? name) : t = u := by
  have antisymm : Std.Antisymm fun a b : String × α => a.1 < b.1 :=
    ⟨fun _ _ ab ba => absurd ab (lt_asymm ba)⟩
  have irrefl : Std.Irrefl fun a b : String × α => a.1 < b.1 := ⟨fun _ => lt_irrefl _⟩
  have same : t.entries = u.entries := by
    refine t.increasing.eq_of_mem_iff u.increasing fun entry => ?_
    rw [mem_entries_iff, mem_entries_iff, h]
  cases t
  cases u
  cases same
  rfl

theorem ext_names {t u : Table Unit} (h : ∀ name, name ∈ t.names ↔ name ∈ u.names) : t = u := by
  refine ext_get? fun name => ?_
  have same := h name
  rw [mem_names_iff, mem_names_iff] at same
  cases ht : t.get? name <;> cases hu : u.get? name <;> simp [ht, hu] at same ⊢

theorem mem_names_insert {name other : String} {value : α} :
    other ∈ (t.insert name value).names ↔ other = name ∨ other ∈ t.names := by
  rw [mem_names_iff, mem_names_iff, get?_insert]
  by_cases same : other = name <;> simp [same]

/-- The first value that passes a test is that of the least name. -/
theorem exists_of_find?_values {test : α → Bool} {value : α}
    (h : t.values.find? test = some value) :
    ∃ name, t.get? name = some value ∧ test value = true ∧
      ∀ {other found}, t.get? other = some found → test found = true → name ≤ other := by
  have found : (t.entries.find? fun entry => test entry.2).map (·.2) = some value := by
    rw [values, List.find?_map] at h
    exact h
  obtain ⟨⟨name, value⟩, he, rfl⟩ := Option.map_eq_some_iff.1 found
  obtain ⟨passes, before, after, hs, fails⟩ := List.find?_eq_some_iff_append.1 he
  have stored : t.get? name = some value :=
    mem_entries_iff.1 (hs ▸ List.mem_append_right _ List.mem_cons_self)
  refine ⟨name, stored, passes, fun {other found} ho also => ?_⟩
  have mem : (other, found) ∈ before ++ (name, value) :: after := hs ▸ mem_entries_iff.2 ho
  have increasing := t.increasing
  rw [hs] at increasing
  rcases List.mem_append.1 mem with mem | mem
  · have := fails _ mem
    simp [also] at this
  · rcases List.mem_cons.1 mem with same | mem
    · exact (Prod.mk.inj same).1 ▸ le_refl _
    · exact le_of_lt ((List.pairwise_cons.1 (List.pairwise_append.1 increasing).2.1).1 _ mem)

/-- A table whose values are those of another one, each changed in some way. -/
theorem entries_eq_of_get? {f : String → α → α}
    (h : ∀ name, u.get? name = (t.get? name).map (f name)) :
    u.entries = t.entries.map fun entry => (entry.1, f entry.1 entry.2) := by
  have increasing : (t.entries.map fun entry => (entry.1, f entry.1 entry.2)).Pairwise
      fun a b => a.1 < b.1 := List.pairwise_map.2 t.increasing
  have same : u = ⟨_, increasing⟩ := ext_get? fun name =>
    (h name).trans (lookup_map_value f name t.entries).symm
  rw [same]

theorem modify_eq_self {name : String} {f : α → α}
    (h : ∀ value, t.get? name = some value → f value = value) : t.modify name f = t := by
  refine ext_get? fun other => ?_
  rw [get?_modify]
  split
  case isTrue same =>
    cases found : t.get? other with
    | none => rfl
    | some value => rw [Option.map_some, h value (same ▸ found)]
  case isFalse => rfl

end Table

end AngularAtlas
