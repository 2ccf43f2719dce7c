import AngularAtlas.Proofs.Text.Search

namespace AngularAtlas.Text

variable {α : Type}

/-- The finds of a reader in a text behind `front`, each with all that stands in front of it. A find
is the leftmost one in the text; the next ones are looked for in what it leaves. -/
inductive Finds (read : Reader α) : List Char → List Char → List (List Char × α) → Prop
  | nil {front back : List Char} :
      (∀ a b, back = a ++ b → b ≠ [] → read (front ++ a).getLast? b = none) →
      Finds read front back []
  | cons {front gap used rest : List Char} {found : α} {later : List (List Char × α)} :
      (∀ a b, gap = a ++ b → b ≠ [] → read (front ++ a).getLast? (b ++ (used ++ rest)) = none) →
      used ≠ [] → read (front ++ gap).getLast? (used ++ rest) = some (found, rest) →
      Finds read (front ++ (gap ++ used)) rest later →
      Finds read front (gap ++ (used ++ rest)) ((front ++ gap, found) :: later)

/-- Where the reader succeeds, it leaves less than it was given. -/
def Advances (read : Reader α) : Prop :=
  ∀ before s a rest, read before s = some (a, rest) → ∃ used, used ≠ [] ∧ s = used ++ rest

variable {read : Reader α} {front back s : List Char} {finds : List (List Char × α)}

theorem getLast?_or_append (front s : List Char) :
    s.getLast?.or front.getLast? = (front ++ s).getLast? := List.getLast?_append.symm

theorem exists_finds_append (advances : Advances read) (front back : List Char) :
    ∃ finds, Finds read front back finds ∧
      findAllFrom read 0 front.getLast? back = finds.map (·.2) := by
  -- on the length of the text, of which each find uses up some
  induction size : back.length using Nat.strongRecOn generalizing front back with
  | ind n ih =>
    cases found : findFirstFrom? read front.getLast? back with
    | none =>
      have nowhere := findFirstFrom?_eq_none_iff.1 found
      simp only [getLast?_or_append] at nowhere
      refine ⟨[], .nil nowhere, ?_⟩
      have passed : findAllFrom read 0 front.getLast? (back ++ []) = [] :=
        findAllFrom_of_forall fun a b he ne => by
          rw [List.append_nil, getLast?_or_append]
          exact nowhere a b he ne
      rwa [List.append_nil] at passed
    | some find =>
      obtain ⟨value, rest⟩ := find
      obtain ⟨gap, more, rfl, -, here, first⟩ := findFirstFrom?_eq_some_iff.1 found
      obtain ⟨used, ne, rfl⟩ := advances _ _ _ _ here
      have shorter : rest.length < n := by
        have := List.length_pos_iff.2 ne
        simp only [List.length_append] at size
        omega
      obtain ⟨later, finds, he⟩ := ih _ shorter (front ++ (gap ++ used)) rest rfl
      have passed := findAllFrom_of_forall first
      simp only [getLast?_or_append] at here first passed
      refine ⟨_, .cons first ne here finds, ?_⟩
      obtain ⟨c, used, rfl⟩ := List.exists_cons_of_ne_nil ne
      have last : (front ++ (gap ++ c :: used)).getLast? = used.getLast?.or (some c) := by
        simp [List.getLast?_append, List.getLast?_cons]
      rw [passed, List.cons_append, findAllFrom_eq_cons here, List.map_cons, ← he, last]

/-- What a search finds are all finds of its reader. -/
theorem exists_finds (advances : Advances read) (s : List Char) :
    ∃ finds, Finds read [] s finds ∧ findAll read s = finds.map (·.2) :=
  exists_finds_append advances [] s

theorem Finds.length_le (h : Finds read front back finds) :
    ∀ find ∈ finds, front.length ≤ find.1.length := by
  induction h with
  | nil => exact fun _ mem => nomatch mem
  | cons _ _ _ _ ih =>
    refine List.forall_mem_cons.2 ⟨by simp, fun find mem => ?_⟩
    have := ih find mem
    rw [List.length_append] at this
    omega

/-- The finds stand in the order of the text. -/
theorem Finds.pairwise (h : Finds read front back finds) :
    finds.Pairwise fun a b => a.1.length < b.1.length := by
  induction h with
  | nil => exact .nil
  | cons _ ne _ later ih =>
    refine .cons (fun find mem => ?_) ih
    have := later.length_le find mem
    have := List.length_pos_iff.2 ne
    simp only [List.length_append] at *
    omega

end AngularAtlas.Text
