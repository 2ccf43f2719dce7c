import AngularAtlas.Text.WordTable

namespace AngularAtlas.Text

def isAsciiLetter (c : Char) : Bool :=
  ('a' ≤ c && c ≤ 'z') || ('A' ≤ c && c ≤ 'Z')

def isAsciiDigit (c : Char) : Bool := '0' ≤ c && c ≤ '9'

def inRanges (ranges : List (Nat × Nat)) (c : Char) : Bool :=
  ranges.any fun (first, last) => first ≤ c.toNat && c.toNat ≤ last

def isWord (c : Char) : Bool :=
  if c.toNat < 128 then isAsciiLetter c || isAsciiDigit c || c == '_' else inRanges wordRanges c

def isNameStart (c : Char) : Bool := isAsciiLetter c || c == '_' || c == '$'

def isNameChar (c : Char) : Bool := isWord c || c == '$'

def identifier? : List Char → Option (List Char × List Char)
  | [] => none
  | c :: r =>
    if isNameStart c then some (c :: r.takeWhile isNameChar, r.dropWhile isNameChar) else none

def isIdentifier : List Char → Bool
  | [] => false
  | c :: r => isNameStart c && r.all isNameChar

/-- There is a word boundary between a character and the text after it: exactly one side
has a word character next to the boundary. -/
def isBoundary (before : Option Char) (after : List Char) : Bool :=
  (before.any isWord) != (after.head?.any isWord)

theorem identifier?_append {s name rest : List Char} (h : identifier? s = some (name, rest)) :
    name ++ rest = s := by
  cases s with
  | nil => simp [identifier?] at h
  | cons c s =>
    simp only [identifier?] at h
    split at h
    · simp only [Option.some.injEq, Prod.mk.injEq] at h
      obtain ⟨rfl, rfl⟩ := h
      simp
    · simp at h

theorem isNameChar_of_isNameStart {c : Char} (h : isNameStart c = true) :
    isNameChar c = true := by
  simp only [isNameStart, isAsciiLetter, Bool.or_eq_true, Bool.and_eq_true, decide_eq_true_eq,
    beq_iff_eq] at h
  simp only [isNameChar, isWord, Bool.or_eq_true, beq_iff_eq]
  rcases h with (h | rfl) | rfl
  · left
    have small : c.toNat < 128 := by
      rcases h with ⟨-, h⟩ | ⟨-, h⟩
      · exact Nat.lt_of_le_of_lt (show c.toNat ≤ 'z'.toNat from h) (by decide)
      · exact Nat.lt_of_le_of_lt (show c.toNat ≤ 'Z'.toNat from h) (by decide)
    simp [small, isAsciiLetter, h]
  · left; decide
  · right; rfl

theorem isIdentifier_of_identifier? {s name rest : List Char}
    (h : identifier? s = some (name, rest)) : isIdentifier name = true := by
  cases s with
  | nil => simp [identifier?] at h
  | cons c s =>
    simp only [identifier?] at h
    split at h
    case isTrue hc =>
      simp only [Option.some.injEq, Prod.mk.injEq] at h
      obtain ⟨rfl, rfl⟩ := h
      simp [isIdentifier, hc]
    case isFalse => simp at h

end AngularAtlas.Text
