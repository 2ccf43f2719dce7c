import AngularAtlas.Proofs.Text.Search
import AngularAtlas.Proofs.Text.Spacing
import AngularAtlas.Proofs.Text.Word

namespace AngularAtlas.Text

/-- As `collapse`, with a space left in front where the text starts with blanks. -/
def squeeze : List Char → List Char
  | [] => []
  | c :: r =>
    if isBlank c then if collapse r = [] then [] else ' ' :: collapse r
    else c :: squeeze r

variable {α : Type} {c : Char} {word : List Char} {test : Char → Bool}

theorem squeeze_cons_of_blank (hc : isBlank c = true) (s : List Char) :
    squeeze (c :: s) = if collapse s = [] then [] else ' ' :: collapse s := by
  rw [squeeze, if_pos hc]

theorem squeeze_cons (hc : isBlank c = false) (s : List Char) :
    squeeze (c :: s) = c :: squeeze s := by
  rw [squeeze, if_neg (by simp [hc])]

theorem isBlank_of_mem_head?_squeeze (hc : isBlank c = true) (s : List Char) :
    ∀ d ∈ (squeeze (c :: s)).head?, isBlank d = true := by
  intro d hd
  rw [squeeze_cons_of_blank hc] at hd
  split at hd
  case isTrue => cases hd
  case isFalse => exact Option.some.inj hd ▸ rfl

theorem collapse_cons (hc : isBlank c = false) (s : List Char) :
    collapse (c :: s) = c :: squeeze s := by
  induction s generalizing c with
  | nil => simp [collapse, words, hc, squeeze]
  | cons d s ih =>
    cases hd : isBlank d with
    | true =>
      have apart : words (c :: d :: s) = [c] :: words s := by
        rw [words, if_neg (by simp [hc]), if_pos (by simpa using hd), words_cons_of_isBlank hd]
      rw [squeeze_cons_of_blank hd, collapse, apart, collapse]
      cases hw : words s with
      | nil => rfl
      | cons w ws =>
        have first : w ≠ [] := (isSolid_of_mem_words (hw ▸ List.mem_cons_self)).ne_nil
        have more : [' '].intercalate (w :: ws) ≠ [] := by
          cases ws <;> simp [first]
        rw [List.intercalate_cons_cons, if_neg more]
        rfl
    | false =>
      obtain ⟨gap, he, -, none⟩ := exists_collapse_cons hc (d :: s)
      rw [he, none (by simp [hd]), squeeze_cons hd, ih hd, List.nil_append]

theorem skipBlanks_collapse (s : List Char) : skipBlanks (collapse s) = collapse s := by
  by_cases empty : collapse s = []
  · rw [empty]
    rfl
  · simpa using (isPhrase_collapse empty).skipBlanks_append []

theorem skipBlanks_squeeze (s : List Char) : skipBlanks (squeeze s) = collapse s := by
  cases s with
  | nil => rfl
  | cons c s =>
    cases hc : isBlank c with
    | true =>
      have gone : collapse (c :: s) = collapse s := by
        rw [collapse, words_cons_of_isBlank hc, collapse]
      rw [squeeze_cons_of_blank hc, gone]
      split
      case isTrue empty => rw [empty]; rfl
      case isFalse => exact (skipBlanks_append isBlank_space _).trans (skipBlanks_collapse s)
    | false => rw [squeeze_cons hc, skipBlanks_of_not_blank hc, collapse_cons hc]

theorem squeeze_skipBlanks (s : List Char) : squeeze (skipBlanks s) = collapse s := by
  induction s with
  | nil => rfl
  | cons c s ih =>
    cases hc : isBlank c with
    | true =>
      rw [collapse, words_cons_of_isBlank hc, ← collapse, ← ih]
      exact congrArg squeeze (skipBlanks_append (List.forall_mem_singleton.2 hc) s)
    | false => rw [skipBlanks_of_not_blank hc, squeeze_cons hc, collapse_cons hc]

section Passes

variable (f : List Char → α) (passes : ∀ c s, isBlank c = true → f (c :: s) = f s)

include passes

theorem apply_skipBlanks (s : List Char) : f (skipBlanks s) = f s := by
  induction s with
  | nil => rfl
  | cons c s ih =>
    cases hc : isBlank c with
    | true =>
      rw [passes c s hc, ← ih]
      exact congrArg f (skipBlanks_append (List.forall_mem_singleton.2 hc) s)
    | false => rw [skipBlanks_of_not_blank hc]

theorem apply_collapse (s : List Char) : f (collapse s) = f (squeeze s) := by
  rw [← skipBlanks_squeeze, apply_skipBlanks f passes]

theorem apply_squeeze_cons_of_blank (hc : isBlank c = true) (s : List Char) :
    f (squeeze (c :: s)) = f (squeeze s) := by
  rw [← apply_collapse f passes, ← apply_collapse f passes, collapse, words_cons_of_isBlank hc,
    ← collapse]

end Passes

theorem isPrefixOf?_squeeze (solid : ∀ c ∈ word, isBlank c = false) (s : List Char) :
    word.isPrefixOf? (squeeze s) = (word.isPrefixOf? s).map squeeze := by
  induction word generalizing s with
  | nil => rfl
  | cons c word ih =>
    obtain ⟨hc, solid⟩ := List.forall_mem_cons.1 solid
    have blank : ∀ s : List Char, (∀ d ∈ s.head?, isBlank d = true) →
        (c :: word).isPrefixOf? s = none := by
      intro s hs
      cases s with
      | nil => rfl
      | cons d s =>
        refine if_neg fun same => ?_
        rw [eq_of_beq same, hs d rfl] at hc
        cases hc
    cases s with
    | nil => rfl
    | cons d s =>
      cases hd : isBlank d with
      | true =>
        rw [blank _ (isBlank_of_mem_head?_squeeze hd s), blank (d :: s) (by simpa using hd)]
        rfl
      | false =>
        have cons : ∀ r, (c :: word).isPrefixOf? (d :: r) =
            if c == d then word.isPrefixOf? r else none := fun _ => rfl
        rw [squeeze_cons hd, cons, cons, ih solid]
        split <;> rfl

theorem afterChar?_eq (c : Char) (s : List Char) : afterChar? c s = [c].isPrefixOf? s := by
  cases s with
  | nil => rfl
  | cons d s =>
    have cons : [c].isPrefixOf? (d :: s) = if c == d then some s else none := rfl
    rw [afterChar?, cons]
    simp only [beq_iff_eq]

theorem afterChar?_squeeze (hc : isBlank c = false) (s : List Char) :
    afterChar? c (squeeze s) = (afterChar? c s).map squeeze := by
  rw [afterChar?_eq, afterChar?_eq, isPrefixOf?_squeeze (List.forall_mem_singleton.2 hc)]

/-- A mark may be read behind blanks. -/
theorem afterChar?_skipBlanks_squeeze (hc : isBlank c = false) (s : List Char) :
    afterChar? c (skipBlanks (squeeze s)) = (afterChar? c (skipBlanks s)).map squeeze := by
  rw [skipBlanks_squeeze, ← squeeze_skipBlanks, afterChar?_squeeze hc]

theorem takeWhile_squeeze (solid : ∀ c, test c = true → isBlank c = false) (s : List Char) :
    (squeeze s).takeWhile test = s.takeWhile test ∧
      (squeeze s).dropWhile test = squeeze (s.dropWhile test) := by
  induction s with
  | nil => exact ⟨rfl, rfl⟩
  | cons c s ih =>
    cases hc : isBlank c with
    | true =>
      have stops : ∀ {s : List Char}, (∀ d ∈ s.head?, isBlank d = true) →
          s.takeWhile test = [] ∧ s.dropWhile test = s := by
        intro s hs
        have stop : ∀ d ∈ s.head?, test d = false := fun d hd =>
          Bool.eq_false_iff.2 fun ht => Bool.false_ne_true ((solid d ht).symm.trans (hs d hd))
        exact ⟨takeWhile_append_of_stop (List.forall_mem_nil _) stop,
          dropWhile_append_of_stop (List.forall_mem_nil _) stop⟩
      obtain ⟨taken, left⟩ := stops (isBlank_of_mem_head?_squeeze hc s)
      obtain ⟨taken', left'⟩ := stops (s := c :: s) (by simpa using hc)
      exact ⟨taken.trans taken'.symm, by rw [left, left']⟩
    | false =>
      rw [squeeze_cons hc, List.takeWhile_cons, List.takeWhile_cons, List.dropWhile_cons,
        List.dropWhile_cons, ih.1, ih.2]
      split
      · exact ⟨rfl, rfl⟩
      · exact ⟨rfl, (squeeze_cons hc s).symm⟩

theorem Spaced.squeeze {tokens : List Token} {s : List Char} (hs : Spaced tokens s)
    (phrases : ∀ t ∈ tokens, IsPhrase t) : Spaced tokens (squeeze s) := by
  obtain ⟨gap, hg, he⟩ := exists_append_skipBlanks (Text.squeeze s)
  rw [he, skipBlanks_squeeze]
  exact (hs.collapse phrases).blank_append hg

end AngularAtlas.Text
