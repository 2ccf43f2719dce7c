import AngularAtlas.Proofs.Source.Pieces
import AngularAtlas.Proofs.Source.Preorder
import AngularAtlas.Proofs.Source.RouteLiteral
import Mathlib.Data.Nat.Init

namespace AngularAtlas.Source

open Text

variable {body element table : List Char} {property : List Char × List Char}
  {properties : List (List Char × List Char)}

/-- Besides its own brace, an object literal has at least those of its values. -/
theorem count_flatten_values_lt (h : objectProperties? element = some properties) :
    (properties.map (·.2)).flatten.count '{' < element.count '{' := by
  simp only [objectProperties?] at h
  split at h
  case isTrue opened =>
    obtain ⟨⟨inside, rest⟩, found, rfl⟩ := Option.map_eq_some_iff.1 h
    obtain ⟨opener, closer, -, he⟩ := exists_of_balanced? found
    obtain rfl : opener = '{' := by simpa [he] using opened
    have values : ∀ parts : List (List Char),
        ((parts.filterMap splitProperty?).map (·.2)).flatten.Sublist parts.flatten := by
      intro parts
      induction parts with
      | nil => exact List.Sublist.refl _
      | cons part parts ih =>
        cases hp : splitProperty? part with
        | none =>
          rw [List.filterMap_cons_none hp, List.flatten_cons]
          exact ih.trans (List.sublist_append_right _ _)
        | some property =>
          rw [List.filterMap_cons_some hp, List.map_cons, List.flatten_cons, List.flatten_cons]
          exact (value_sublist hp).append ih
    calc (((elements inside).filterMap splitProperty?).map (·.2)).flatten.count '{'
        ≤ (elements inside).flatten.count '{' := (values _).count_le _
      _ = inside.count '{' := count_flatten_elements rfl (by decide) inside
      _ ≤ (inside ++ closer :: rest).count '{' := (List.sublist_append_left _ _).count_le _
      _ < ('{' :: (inside ++ closer :: rest)).count '{' := by simp
      _ = (trim element).count '{' := by rw [he]
      _ ≤ element.count '{' := (trim_sublist element).count_le _
  case isFalse => cases h

theorem count_childBody_lt (h : objectProperties? element = some properties)
    (mem : property ∈ properties) (array : childBody? property = some body) :
    body.count '{' < element.count '{' := by
  have inside : body.Sublist property.2 := by
    rw [childBody?] at array
    split at array
    case isTrue => exact arrayBody?_sublist array
    case isFalse => cases array
  have part : property.2.Sublist (properties.map (·.2)).flatten :=
    List.sublist_flatten_of_mem (List.mem_map_of_mem mem)
  exact Nat.lt_of_le_of_lt ((inside.trans part).count_le _) (count_flatten_values_lt h)

theorem count_element_le (mem : element ∈ elements table) :
    element.count '{' ≤ table.count '{' := by
  rw [← count_flatten_elements rfl (by decide) table]
  exact (List.sublist_flatten_of_mem mem).count_le _

/-- The array of a `children` property in one of the elements of a table: where reading the table
goes on. -/
def IsChildTable (body table : List Char) : Prop :=
  ∃ element ∈ elements table, ∃ properties, objectProperties? element = some properties ∧
    ∃ property ∈ properties, childBody? property = some body

theorem IsChildTable.count_lt (h : IsChildTable body table) : body.count '{' < table.count '{' := by
  obtain ⟨element, mem, properties, he, property, hp, array⟩ := h
  exact Nat.lt_of_lt_of_le (count_childBody_lt he hp array) (count_element_le mem)

theorem children_foldl_withProperty (properties : List (List Char × List Char)) (route : Route) :
    (properties.foldl Route.withProperty route).children = route.children := by
  induction properties generalizing route with
  | nil => rfl
  | cons property properties ih =>
    rw [List.foldl_cons, ih, Route.withProperty]
    split_ifs <;> rfl

/-- An element of a table holds no more routes than braces when this is so of the tables in it. -/
theorem length_flatten_le {route : Route} (h : readRoute? element = some route)
    (inner : ∀ body : List Char, body.count '{' < element.count '{' →
      ((routesIn body).flatMap Route.flatten).length ≤ body.count '{') :
    route.flatten.length ≤ element.count '{' := by
  obtain ⟨properties, he, rfl⟩ := Option.map_eq_some_iff.1 h
  rw [flatten_eq, List.length_cons, children_foldl_withProperty]
  cases hc : childTable? properties with
  | none =>
    have own := count_flatten_values_lt he
    simp only [Option.map_none, Option.getD_none, List.flatMap_nil, List.length_nil]
    omega
  | some body =>
    obtain ⟨property, mem, array⟩ := List.mem_filterMap.1 (List.mem_of_getLast? hc)
    have fewer := count_childBody_lt he mem array
    exact Nat.lt_of_le_of_lt (inner body fewer) fewer

theorem length_routesIn_le (table : List Char) :
    ((routesIn table).flatMap Route.flatten).length ≤ table.count '{' := by
  -- on the number of braces, which the tables inside an element have fewer of
  induction h : table.count '{' using Nat.strong_induction_on generalizing table with
  | _ n ih =>
    subst h
    have each : ∀ element ∈ elements table, ∀ route, readRoute? element = some route →
        route.flatten.length ≤ element.count '{' := by
      intro element mem route found
      refine length_flatten_le found fun body fewer => ih _ ?_ body rfl
      exact Nat.lt_of_lt_of_le fewer (count_element_le mem)
    rw [routesIn_eq, ← count_flatten_elements rfl (by decide) table]
    generalize elements table = parts at each
    induction parts with
    | nil => exact Nat.le_refl _
    | cons part parts more =>
      obtain ⟨first, later⟩ := List.forall_mem_cons.1 each
      have rest := more later
      rw [List.flatten_cons, List.count_append]
      cases hr : readRoute? part with
      | none =>
        rw [List.filterMap_cons_none hr]
        omega
      | some route =>
        have own := first route hr
        rw [List.filterMap_cons_some hr, List.flatMap_cons, List.length_append]
        omega

/-- However a table is written, reading it ends, and finds no more routes than braces. -/
theorem wellFounded_isChildTable_and_length_le : WellFounded IsChildTable ∧
    ∀ table : List Char,
      ((routesIn table).flatMap Route.flatten).length ≤ table.count '{' :=
  ⟨Subrelation.wf IsChildTable.count_lt (measure (List.count '{')).wf, length_routesIn_le⟩

end AngularAtlas.Source
