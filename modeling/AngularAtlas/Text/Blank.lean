namespace AngularAtlas.Text

/-- The white space characters of Unicode. Zero-width spaces and the byte order mark are not
among them. -/
def isBlank (c : Char) : Bool :=
  let n := c.toNat
  (9 ≤ n && n ≤ 13) || n == 0x20 || n == 0x85 || n == 0xa0 || n == 0x1680 ||
    (0x2000 ≤ n && n ≤ 0x200a) || n == 0x2028 || n == 0x2029 || n == 0x202f || n == 0x205f ||
    n == 0x3000

def skipBlanks (s : List Char) : List Char := s.dropWhile isBlank

def skipBlanks1? : List Char → Option (List Char)
  | [] => none
  | c :: r => if isBlank c then some (skipBlanks r) else none

def trimEnd (s : List Char) : List Char := (s.reverse.dropWhile isBlank).reverse

def trim (s : List Char) : List Char := trimEnd (skipBlanks s)

/-- The maximal runs of characters that are not blank, in order. -/
def words : List Char → List (List Char)
  | [] => []
  | c :: r =>
    if isBlank c then words r
    else if r.head?.all isBlank then [c] :: words r
    else (words r).modifyHead (c :: ·)

/-- Every run of blanks becomes one space, and none is left at the ends. -/
def collapse (s : List Char) : List Char := [' '].intercalate (words s)

theorem skipBlanks_length_le (s : List Char) : (skipBlanks s).length ≤ s.length :=
  (List.dropWhile_suffix isBlank).sublist.length_le

theorem words_cons_of_isBlank {c : Char} (h : isBlank c = true) (r : List Char) :
    words (c :: r) = words r := by
  simp [words, h]

theorem trimEnd_length_le (s : List Char) : (trimEnd s).length ≤ s.length := by
  have := (List.dropWhile_suffix isBlank (l := s.reverse)).sublist.length_le
  simpa [trimEnd] using this

theorem trim_length_le (s : List Char) : (trim s).length ≤ s.length :=
  Nat.le_trans (trimEnd_length_le _) (skipBlanks_length_le s)

theorem intercalate_cons_length {α : Type} (sep w : List α) (ws : List (List α)) :
    (sep.intercalate (w :: ws)).length =
      w.length + (if ws = [] then 0 else sep.length + (sep.intercalate ws).length) := by
  cases ws with
  | nil => simp
  | cons v ws => simp [List.intercalate, List.length_append, List.intersperse]

theorem collapse_length_lt_of_isBlank {c : Char} (h : isBlank c = true) {r : List Char}
    (hr : (collapse r).length ≤ r.length) : (collapse (c :: r)).length < (c :: r).length := by
  simpa [collapse, words_cons_of_isBlank h] using Nat.lt_succ_of_le hr

theorem collapse_length_le (s : List Char) : (collapse s).length ≤ s.length := by
  suffices h : (collapse s).length ≤ s.length ∧
      (s.head?.any isBlank → (collapse s).length < s.length) from h.1
  induction s with
  | nil => simp [collapse, words]
  | cons c r ih =>
    by_cases hc : isBlank c = true
    · have := collapse_length_lt_of_isBlank hc ih.1
      exact ⟨Nat.le_of_lt this, fun _ => this⟩
    · suffices h : (collapse (c :: r)).length ≤ (c :: r).length from ⟨h, fun h => by simp [hc] at h⟩
      simp only [collapse, words, hc, Bool.false_eq_true, if_false]
      split
      case isTrue hr =>
        rw [intercalate_cons_length]
        split
        · simp
        · cases r with
          | nil => contradiction
          | cons d t =>
            have := ih.2 (by simpa using hr)
            simp only [collapse, List.length_cons, List.length_nil] at this ⊢
            omega
      case isFalse hr =>
        have := ih.1
        cases hw : words r with
        | nil => simp
        | cons w ws =>
          simp only [collapse, hw, List.modifyHead_cons, intercalate_cons_length,
            List.length_cons] at this ⊢
          omega

end AngularAtlas.Text
