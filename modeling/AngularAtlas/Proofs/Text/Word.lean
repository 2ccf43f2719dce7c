import AngularAtlas.Text.Blank
import AngularAtlas.Text.Word

namespace AngularAtlas.Text

variable {c : Char}

theorem eq_false_of_mem {test : Char → Bool} {chars : List Char} (hc : c ∈ chars)
    (h : chars.all (!test ·) = true) : test c = false := by
  simpa using List.all_eq_true.1 h c hc

theorem not_mem_of_test {test : Char → Bool} {chars : List Char} (hc : test c = true)
    (h : chars.all (!test ·) = true) : c ∉ chars := by
  intro mem
  rw [eq_false_of_mem mem h] at hc
  cases hc

theorem not_mem_of_all {s marks : List Char} (h : s.all (!marks.contains ·) = true) :
    ∀ c ∈ s, c ∉ marks := by
  simpa using h

variable {test : Char → Bool} {s r : List Char}

theorem takeWhile_append_of_stop (run : ∀ c ∈ s, test c = true)
    (stop : ∀ c ∈ r.head?, test c = false) : (s ++ r).takeWhile test = s := by
  rw [List.takeWhile_append_of_pos run]
  cases r with
  | nil => simp
  | cons c r => simp [stop c rfl]

theorem dropWhile_append_of_stop (run : ∀ c ∈ s, test c = true)
    (stop : ∀ c ∈ r.head?, test c = false) : (s ++ r).dropWhile test = r := by
  rw [List.dropWhile_append_of_pos run]
  cases r with
  | nil => rfl
  | cons c r => simp [stop c rfl]

/-- The code points of the blank characters. -/
def blankCodes : List Nat :=
  [9, 10, 11, 12, 13, 0x20, 0x85, 0xa0, 0x1680, 0x2000, 0x2001, 0x2002, 0x2003, 0x2004, 0x2005,
    0x2006, 0x2007, 0x2008, 0x2009, 0x200a, 0x2028, 0x2029, 0x202f, 0x205f, 0x3000]

theorem toNat_mem_blankCodes (hc : isBlank c = true) : c.toNat ∈ blankCodes := by
  simp only [isBlank, Bool.or_eq_true, Bool.and_eq_true, decide_eq_true_eq, beq_iff_eq] at hc
  simp only [blankCodes, List.mem_cons, List.not_mem_nil, or_false]
  omega

theorem isNameChar_eq_false_of_isBlank (hc : isBlank c = true) : isNameChar c = false := by
  have codes : ∀ n ∈ blankCodes, isNameChar (Char.ofNat n) = false := by decide +kernel
  have := codes c.toNat (toNat_mem_blankCodes hc)
  rwa [Char.ofNat_toNat] at this

theorem isBlank_eq_false_of_isNameChar (hc : isNameChar c = true) : isBlank c = false := by
  cases hb : isBlank c with
  | false => rfl
  | true => exact absurd (isNameChar_eq_false_of_isBlank hb) (by simp [hc])

theorem isNameChar_of_isWord (hc : isWord c = true) : isNameChar c = true := by
  simp [isNameChar, hc]

theorem isNameChar_of_mem_isIdentifier {name : List Char} (hn : isIdentifier name = true)
    (hc : c ∈ name) : isNameChar c = true := by
  cases name with
  | nil => cases hc
  | cons d name =>
    simp only [isIdentifier, Bool.and_eq_true, List.all_eq_true] at hn
    rcases List.mem_cons.1 hc with rfl | hc
    · exact isNameChar_of_isNameStart hn.1
    · exact hn.2 c hc

end AngularAtlas.Text
