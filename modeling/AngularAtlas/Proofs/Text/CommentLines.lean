import AngularAtlas.Proofs.Text.Gap
import Mathlib.Data.List.Forall2

namespace AngularAtlas.Text

/-- Spaces and tabs. -/
def IsSpacing (s : List Char) : Prop := ∀ c ∈ s, c = ' ' ∨ c = '\t'

/-- A line is cut in front of the longest run of spaces and tabs before its first `//`, and stays as
it is where it has none. -/
inductive IsCut : List Char → List Char → Prop
  | whole {line : List Char} : ¬ ['/', '/'] <:+: line → IsCut line line
  | comment {kept gap rest : List Char} : IsSpacing gap →
      (∀ c ∈ kept.getLast?, ¬IsSpacing [c]) → ¬ ['/', '/'] <:+: kept ++ (gap ++ ['/']) →
      IsCut (kept ++ (gap ++ '/' :: '/' :: rest)) kept

variable {s t line kept word : List Char} {lines : List (List Char)} {c : Char}

theorem isSpacing_singleton : IsSpacing [c] ↔ c = ' ' ∨ c = '\t' := List.forall_mem_singleton

theorem infix_append_cons (hc : c ∉ word) (h : word <:+: s ++ c :: t) :
    word <:+: s ∨ word <:+: t := by
  have missing : ∀ {w : List Char}, w <:+: word → w <+: c :: t → w = [] := by
    intro w part start
    rcases List.prefix_cons_iff.1 start with he | ⟨w', rfl, -⟩
    · exact he
    · exact absurd (part.subset List.mem_cons_self) hc
  rcases List.infix_append_iff.1 h with front | back | ⟨w, w', rfl, front, start⟩
  · exact .inl front
  · rcases List.infix_cons_iff.1 back with start | back
    · rw [missing List.infix_rfl start]
      exact .inl List.nil_infix
    · exact .inr back
  · rw [missing (List.suffix_append w w').isInfix start, List.append_nil]
    exact .inl front.isInfix

theorem exists_infix_of_infix_intercalate (hc : c ∉ word) (ne : lines ≠ [])
    (h : word <:+: [c].intercalate lines) : ∃ line ∈ lines, word <:+: line := by
  induction lines with
  | nil => exact absurd rfl ne
  | cons line lines ih =>
    cases lines with
    | nil => exact ⟨line, List.mem_singleton_self line, by simpa using h⟩
    | cons next lines =>
      rw [List.intercalate_cons_cons, List.append_assoc, List.singleton_append] at h
      rcases infix_append_cons hc h with first | later
      · exact ⟨line, List.mem_cons_self, first⟩
      · obtain ⟨found, mem, part⟩ := ih (List.cons_ne_nil _ _) later
        exact ⟨found, List.mem_cons_of_mem _ mem, part⟩

theorem startsLineComment_iff : startsLineComment s = true ↔
    ∃ gap rest, IsSpacing gap ∧ s = gap ++ '/' :: '/' :: rest := by
  have spacing : ∀ {c : Char}, (c == ' ' || c == '\t') = true ↔ c = ' ' ∨ c = '\t' := by simp
  constructor
  · intro h
    obtain ⟨rest, he⟩ := List.isPrefixOf_iff_prefix.1 h
    refine ⟨s.takeWhile fun c => c == ' ' || c == '\t', rest, fun c hc => ?_, ?_⟩
    · exact spacing.1 (List.all_eq_true.1 (List.all_takeWhile (l := s)) c hc)
    · exact List.takeWhile_append_dropWhile.symm.trans (congrArg _ he.symm)
  · rintro ⟨gap, rest, hg, rfl⟩
    rw [startsLineComment, List.dropWhile_append_of_pos fun c hc => spacing.2 (hg c hc)]
    rfl

theorem startsLineComment_cons_of_ne (hc : c ≠ '/') (s : List Char) :
    startsLineComment (c :: s) = ((c == ' ' || c == '\t') && startsLineComment s) := by
  rw [startsLineComment, List.dropWhile_cons]
  split
  case isTrue spacing => rw [spacing, Bool.true_and, startsLineComment]
  case isFalse other =>
    rw [Bool.eq_false_iff.2 other, Bool.false_and, List.isPrefixOf, beq_false_of_ne hc.symm]
    rfl

theorem startsLineComment_slash (s : List Char) :
    startsLineComment ('/' :: s) = (s.head? == some '/') := by
  cases s with
  | nil => rfl
  | cons d s => simp [startsLineComment, List.isPrefixOf, Bool.beq_comm]

theorem startsLineComment_append (ends : ∀ c ∈ t.head?, c = '\n') :
    startsLineComment (s ++ t) = startsLineComment s := by
  have other : t.head? ≠ some '/' := fun h => absurd (ends _ h) (by decide)
  induction s with
  | nil =>
    cases t with
    | nil => rfl
    | cons d t =>
      obtain rfl := ends d rfl
      rfl
  | cons c s ih =>
    by_cases hc : c = '/'
    · rw [hc, List.cons_append, startsLineComment_slash, startsLineComment_slash]
      cases s with
      | nil => simpa using other
      | cons d s => rfl
    · rw [List.cons_append, startsLineComment_cons_of_ne hc, startsLineComment_cons_of_ne hc, ih]

theorem not_infix_of_isSpacing (hs : IsSpacing s) : ¬ ['/', '/'] <:+: s ++ ['/'] := by
  intro h
  have none : s.count '/' = 0 := List.count_eq_zero.2 fun mem => by simpa using hs '/' mem
  have two := h.count_le '/'
  rw [List.count_append, none] at two
  exact absurd two (by decide)

/-- A line is cut where the line behind its first character is, unless a comment starts at that
character. -/
theorem IsCut.cons (h : IsCut line kept) (none : startsLineComment (c :: line) = false) :
    IsCut (c :: line) (c :: kept) := by
  have here : ∀ gap rest : List Char, IsSpacing gap → c :: line ≠ gap ++ '/' :: '/' :: rest := by
    intro gap rest hg he
    rw [startsLineComment_iff.2 ⟨gap, rest, hg, he⟩] at none
    cases none
  cases h with
  | whole plain =>
    refine .whole fun h => ?_
    rcases List.infix_cons_iff.1 h with ⟨rest, he⟩ | h
    · exact here [] rest (fun _ h => nomatch h) he.symm
    · exact plain h
  | @comment kept gap rest hg last first =>
    refine @IsCut.comment (c :: kept) gap rest hg (fun d hd => ?_) fun h => ?_
    · cases kept with
      | nil =>
        obtain rfl : c = d := by simpa using hd
        exact fun hc => here (c :: gap) rest
          (List.forall_mem_cons.2 ⟨isSpacing_singleton.1 hc, hg⟩) rfl
      | cons e kept => exact last d (by simpa [List.getLast?_cons] using hd)
    · rcases List.infix_cons_iff.1 h with ⟨more, he⟩ | h
      · refine here [] (more ++ '/' :: rest) (fun _ h => nomatch h) ?_
        simpa using congrArg (· ++ '/' :: rest) he.symm
      · exact first h

theorem isCut_cutLineComment (line : List Char) : IsCut line (cutLineComment line) := by
  induction line with
  | nil => exact .whole (by decide)
  | cons c line ih =>
    rw [cutLineComment]
    split
    case isTrue starts =>
      obtain ⟨gap, rest, hg, he⟩ := startsLineComment_iff.1 starts
      rw [he]
      exact @IsCut.comment [] gap rest hg (by simp) (not_infix_of_isSpacing hg)
    case isFalse none => exact ih.cons (Bool.eq_false_iff.2 none)

theorem IsCut.isPrefix (h : IsCut line kept) : kept <+: line := by
  cases h with
  | whole => exact List.prefix_rfl
  | comment => exact List.prefix_append _ _

theorem IsCut.no_slashes (h : IsCut line kept) : ¬ ['/', '/'] <:+: kept := by
  cases h with
  | whole plain => exact plain
  | comment _ _ first => exact fun h => first (List.infix_append_of_infix_left h)

theorem exists_eq_line_append (s : List Char) :
    ∃ line rest, s = line ++ rest ∧ '\n' ∉ line ∧ ∀ c ∈ rest.head?, c = '\n' := by
  by_cases hs : '\n' ∈ s
  · obtain ⟨line, rest, rfl, hl⟩ := List.eq_append_cons_of_mem hs
    exact ⟨line, '\n' :: rest, rfl, hl, fun c hc => (Option.some.inj hc).symm⟩
  · exact ⟨s, [], (List.append_nil s).symm, hs, fun _ h => nomatch h⟩

theorem removeLineComments_append (hl : '\n' ∉ line) (ends : ∀ c ∈ t.head?, c = '\n') :
    removeLineComments (line ++ t) = cutLineComment line ++ removeLineComments t := by
  cases t with
  | nil =>
    rw [List.append_nil, removeLineComments_of_not_mem hl,
      removeLineComments_of_not_mem List.not_mem_nil, cutLineComment, List.append_nil]
  | cons c t =>
    obtain rfl := ends c rfl
    have newline := removeLineComments_append_newline List.not_mem_nil t
    rw [List.nil_append, cutLineComment, List.nil_append] at newline
    rw [removeLineComments_append_newline hl, newline]

/-- Line comments are taken out from left to right. -/
theorem removeLineComments_cons (hc : c ≠ '/') (s : List Char) : removeLineComments (c :: s) =
    if startsLineComment (c :: s) then removeLineComments s else c :: removeLineComments s := by
  by_cases newline : c = '\n'
  · subst newline
    exact removeLineComments_append_newline List.not_mem_nil s
  · obtain ⟨line, rest, rfl, hl, ends⟩ := exists_eq_line_append s
    have whole : '\n' ∉ c :: line := by simp [Ne.symm newline, hl]
    rw [← List.cons_append, removeLineComments_append whole ends, removeLineComments_append hl ends,
      cutLineComment, startsLineComment_append ends]
    split
    case isTrue starts =>
      rw [startsLineComment_cons_of_ne hc, Bool.and_eq_true] at starts
      rw [cutLineComment_of_starts starts.2]
    case isFalse => rfl

theorem splitOn_removeLineComments (s : List Char) :
    (removeLineComments s).splitOn '\n' = (s.splitOn '\n').map cutLineComment := by
  refine List.splitOn_intercalate '\n' (fun kept mem newline => ?_) (by simp)
  obtain ⟨line, hl, rfl⟩ := List.mem_map.1 mem
  exact not_mem_of_mem_splitOn hl ((cutLineComment_sublist line).mem newline)

/-- A word on one line of what is left stands in the text. -/
theorem exists_infix_of_infix_removeLineComments (hw : '\n' ∉ word)
    (h : word <:+: removeLineComments s) :
    ∃ line ∈ s.splitOn '\n', word <:+: cutLineComment line := by
  obtain ⟨kept, mem, part⟩ := exists_infix_of_infix_intercalate hw (by simp) h
  obtain ⟨line, hl, rfl⟩ := List.mem_map.1 mem
  exact ⟨line, hl, part⟩

theorem not_infix_removeLineComments (s : List Char) : ¬ ['/', '/'] <:+: removeLineComments s := by
  intro h
  obtain ⟨line, -, part⟩ := exists_infix_of_infix_removeLineComments (by decide) h
  exact (isCut_cutLineComment line).no_slashes part

theorem infix_of_infix_removeLineComments (hw : '\n' ∉ word)
    (h : word <:+: removeLineComments s) : word <:+: s := by
  obtain ⟨line, hl, part⟩ := exists_infix_of_infix_removeLineComments hw h
  exact part.trans ((isCut_cutLineComment line).isPrefix.isInfix.trans (infix_of_mem_splitOn hl))

/-- Nothing is left of line comments. Where no block comment starts, each line is cut on its own,
and what is left stays as it is. -/
theorem removeComments_lines (s : List Char) :
    ¬ ['/', '/'] <:+: removeComments s ∧ (removeComments s).Sublist s ∧
      (¬ ['/', '*'] <:+: s →
        List.Forall₂ IsCut (s.splitOn '\n') ((removeComments s).splitOn '\n') ∧
          removeComments (removeComments s) = removeComments s) := by
  refine ⟨not_infix_removeLineComments _, removeComments_sublist s, fun noBlock => ?_⟩
  have lines : removeComments s = removeLineComments s := by
    rw [removeComments, removeBlockComments_of_unopened noBlock]
  have plain : IsPlain (removeLineComments s) :=
    ⟨not_infix_removeLineComments s,
      fun h => noBlock (infix_of_infix_removeLineComments (by decide) h)⟩
  rw [lines, splitOn_removeLineComments]
  refine ⟨?_, removeComments_of_isPlain plain⟩
  rw [List.forall₂_map_right_iff, List.forall₂_same]
  exact fun line _ => isCut_cutLineComment line

/-- Slashes that start a comment on some lines only, and a carriage return at the end of one. -/
def slashedText : List Char := "a / b\t // c // d\r\n / * e\n///".toList

theorem removeComments_lines_slashedText : ¬ ['/', '*'] <:+: slashedText ∧
    List.Forall₂ IsCut (slashedText.splitOn '\n') ["a / b".toList, " / * e".toList, []] ∧
      removeComments (removeComments slashedText) = removeComments slashedText := by
  have noBlock : ¬ ['/', '*'] <:+: slashedText := by decide +kernel
  have left : (removeComments slashedText).splitOn '\n' =
      ["a / b".toList, " / * e".toList, []] := by decide +kernel
  obtain ⟨lines, again⟩ := (removeComments_lines slashedText).2.2 noBlock
  rw [left] at lines
  exact ⟨noBlock, lines, again⟩

end AngularAtlas.Text
