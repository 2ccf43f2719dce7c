namespace AngularAtlas.Text

def utf8Length : List Char → Nat
  | [] => 0
  | c :: r => c.utf8Size + utf8Length r

/-- The two parts of the text before and after a byte offset, when the offset is inside the text
or at its end and does not split a character. -/
def cutAt? : List Char → Nat → Option (List Char × List Char)
  | s, 0 => some ([], s)
  | [], _ + 1 => none
  | c :: r, n + 1 =>
    if c.utf8Size ≤ n + 1 then
      (cutAt? r (n + 1 - c.utf8Size)).map fun (a, b) => (c :: a, b)
    else none

def from? (s : List Char) (offset : Nat) : Option (List Char) := (cutAt? s offset).map (·.2)

@[simp] theorem utf8Length_nil : utf8Length [] = 0 := rfl

@[simp] theorem utf8Length_cons (c : Char) (r : List Char) :
    utf8Length (c :: r) = c.utf8Size + utf8Length r := rfl

@[simp] theorem utf8Length_append (s t : List Char) :
    utf8Length (s ++ t) = utf8Length s + utf8Length t := by
  induction s with
  | nil => simp
  | cons c s ih => simp [ih, Nat.add_assoc]

theorem cutAt?_append (a b : List Char) : cutAt? (a ++ b) (utf8Length a) = some (a, b) := by
  induction a with
  | nil => cases b <;> rfl
  | cons c a ih =>
    obtain ⟨n, hn⟩ := Nat.exists_eq_succ_of_ne_zero (Nat.ne_of_gt c.utf8Size_pos)
    have behind : n + utf8Length a + 1 - c.utf8Size = utf8Length a := by omega
    rw [List.cons_append, utf8Length_cons, hn, Nat.succ_add, cutAt?, if_pos (by omega), behind, ih]
    rfl

theorem eq_of_cutAt? {s a b : List Char} {n : Nat} (h : cutAt? s n = some (a, b)) :
    s = a ++ b ∧ utf8Length a = n := by
  fun_induction cutAt? s n generalizing a with
  | case1 =>
    obtain ⟨rfl, rfl⟩ := Prod.mk.inj (Option.some.inj h)
    exact ⟨rfl, rfl⟩
  | case3 c r n fits ih =>
    obtain ⟨⟨front, back⟩, found, same⟩ := Option.map_eq_some_iff.1 h
    obtain ⟨rfl, rfl⟩ := Prod.mk.inj same
    obtain ⟨rfl, length⟩ := ih found
    exact ⟨rfl, by rw [utf8Length_cons]; omega⟩
  | case2 | case4 => cases h

theorem cutAt?_eq_some_iff {s a b : List Char} {n : Nat} :
    cutAt? s n = some (a, b) ↔ s = a ++ b ∧ utf8Length a = n := by
  refine ⟨eq_of_cutAt?, ?_⟩
  rintro ⟨rfl, rfl⟩
  exact cutAt?_append a b

end AngularAtlas.Text
