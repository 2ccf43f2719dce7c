import AngularAtlas.Proofs.Checked.Components

namespace AngularAtlas.Hierarchy

open Text

/-- A name in a template can go on with the character. -/
def GoesOn (c : Char) : Prop := c.isAlphanum = true ∨ c = '-' ∨ c = '_'

/-- A word stands somewhere in a text, at its end or in front of a character with which no name
goes on. -/
def StandsIn (word s : List Char) : Prop :=
  ∃ before after, s = before ++ (word ++ after) ∧ ∀ c ∈ after.head?, ¬GoesOn c

variable {word s selector template : List Char} {c : Char}

theorem isTagChar_iff : isTagChar c = true ↔ GoesOn c := by
  have upper : c.isUpper = (decide ('A' ≤ c) && decide (c ≤ 'Z')) := Bool.decide_and _ _
  have letter : isAsciiLetter c = c.isAlpha := by
    change _ = (c.isUpper || _)
    rw [isAsciiLetter, Bool.or_comm, upper]
    rfl
  have digit : isAsciiDigit c = c.isDigit := rfl
  rw [isTagChar, GoesOn, letter, digit, Char.isAlphanum]
  simp [or_assoc]

theorem head?_all_iff : (s.head?.all fun c => !isTagChar c) = true ↔ ∀ c ∈ s.head?, ¬GoesOn c := by
  cases s with
  | nil => simp
  | cons d s => simp [← isTagChar_iff]

theorem standsIn_nil_iff : StandsIn word [] ↔ word = [] := by
  constructor
  · rintro ⟨before, after, parts, -⟩
    exact (List.append_eq_nil_iff.1 (List.append_eq_nil_iff.1 parts.symm).2).1
  · rintro rfl
    exact ⟨[], [], rfl, nofun⟩

/-- A word stands at the start of a text, or in what is left behind the first character. -/
theorem standsIn_cons_iff : StandsIn word (c :: s) ↔
    (∃ after, c :: s = word ++ after ∧ ∀ d ∈ after.head?, ¬GoesOn d) ∨ StandsIn word s := by
  constructor
  · rintro ⟨before, after, parts, ends⟩
    cases before with
    | nil => exact .inl ⟨after, parts, ends⟩
    | cons d before =>
      obtain ⟨-, parts⟩ := List.cons.inj parts
      exact .inr ⟨before, after, parts, ends⟩
  · rintro (⟨after, parts, ends⟩ | ⟨before, after, rfl, ends⟩)
    · exact ⟨[], after, parts, ends⟩
    · exact ⟨c :: before, after, rfl, ends⟩

theorem occursAsName_iff (ne : word ≠ []) : occursAsName word s = true ↔ StandsIn word s := by
  induction s with
  | nil => simp [occursAsName, standsIn_nil_iff, ne]
  | cons c s ih =>
    rw [occursAsName, Bool.or_eq_true, ih, standsIn_cons_iff, Option.any_eq_true]
    refine or_congr_left ⟨?_, ?_⟩
    · rintro ⟨after, front, ends⟩
      exact ⟨after, (isPrefixOf?_append front).symm, head?_all_iff.1 ends⟩
    · rintro ⟨after, parts, ends⟩
      exact ⟨after, parts ▸ isPrefixOf?_append_self word after, head?_all_iff.2 ends⟩

/-- A template uses a component exactly if the selector stands in it as a tag or an attribute. The
search by offsets, which goes on inside of each place that it rejects, comes to an end and finds
the same. -/
theorem templateUses_iff (template selector : List Char) :
    (templateUses template selector = true ↔ selector ≠ [] ∧
      (('<' :: '/' :: selector ++ ['>']) <:+: template ∨ StandsIn ('<' :: selector) template ∨
        StandsIn (' ' :: selector) template)) ∧
    Checked.templateUses template selector = .ok (templateUses template selector) := by
  refine ⟨?_, Checked.templateUses_eq template selector⟩
  rw [templateUses, Bool.and_eq_true, Bool.or_eq_true, Bool.or_eq_true, decide_eq_true_eq,
    contains_iff, occursAsName_iff (List.cons_ne_nil _ _), occursAsName_iff (List.cons_ne_nil _ _),
    or_assoc]

end AngularAtlas.Hierarchy
