import AngularAtlas.Text.Comment

namespace AngularAtlas.Text

/-- Neither a line comment nor a block comment starts in the text. -/
structure IsPlain (s : List Char) : Prop where
  noLine : ¬ ['/', '/'] <:+: s
  noBlock : ¬ ['/', '*'] <:+: s

variable {s t : List Char}

theorem IsPlain.of_infix (hs : IsPlain s) (ht : t <:+: s) : IsPlain t :=
  ⟨fun h => hs.noLine (h.trans ht), fun h => hs.noBlock (h.trans ht)⟩

theorem removeBlockComments_eq_self (hs : ∀ t, t <:+ s → afterBlockComment? t = none) :
    removeBlockComments s = s := by
  fun_induction removeBlockComments s with
  | case1 s r hr => exact nomatch hr.symm.trans (hs s List.suffix_rfl)
  | case2 => rfl
  | case3 c r _ ih => rw [ih fun t ht => hs t (ht.trans (List.suffix_cons c r))]

theorem removeBlockComments_of_unopened (hs : ¬ ['/', '*'] <:+: s) :
    removeBlockComments s = s := by
  refine removeBlockComments_eq_self fun t ht => ?_
  unfold afterBlockComment?
  split
  case h_1 r => exact absurd (.trans ⟨[], r, rfl⟩ ht.isInfix) hs
  case h_2 => rfl

theorem cutLineComment_of_isPlain (hs : IsPlain s) : cutLineComment s = s := by
  induction s with
  | nil => rfl
  | cons c r ih =>
    rw [cutLineComment, if_neg, ih (hs.of_infix (List.suffix_cons c r).isInfix)]
    intro h
    have slashes := (List.isPrefixOf_iff_prefix.1 h).isInfix
    exact hs.noLine (slashes.trans (List.dropWhile_suffix _).isInfix)

theorem exists_splitOn_eq_cons (s : List Char) (c : Char) :
    ∃ first later, s.splitOn c = first :: later ∧ first <+: s ∧ ∀ t ∈ later, t <:+: s := by
  induction s with
  | nil => exact ⟨[], [], rfl, List.prefix_refl _, by simp⟩
  | cons d s ih =>
    obtain ⟨first, later, he, hf, hl⟩ := ih
    have tail : ∀ {t : List Char}, t <:+: s → t <:+: d :: s :=
      fun h => h.trans (List.suffix_cons d s).isInfix
    rw [List.splitOn_cons_eq_if_modifyHead, he]
    split
    · refine ⟨[], first :: later, rfl, List.nil_prefix, fun t ht => tail ?_⟩
      rcases List.mem_cons.1 ht with rfl | ht
      · exact hf.isInfix
      · exact hl t ht
    · exact ⟨d :: first, later, rfl, List.cons_prefix_cons.2 ⟨rfl, hf⟩, fun t ht => tail (hl t ht)⟩

theorem infix_of_mem_splitOn {c : Char} (ht : t ∈ s.splitOn c) : t <:+: s := by
  obtain ⟨first, later, he, hf, hl⟩ := exists_splitOn_eq_cons s c
  rw [he] at ht
  rcases List.mem_cons.1 ht with rfl | ht
  · exact hf.isInfix
  · exact hl t ht

theorem not_mem_of_mem_splitOn {c : Char} (ht : t ∈ s.splitOn c) : c ∉ t := by
  induction s generalizing t with
  | nil =>
    obtain rfl := List.mem_singleton.1 ht
    exact List.not_mem_nil
  | cons d s ih =>
    rw [List.splitOn_cons_eq_if_modifyHead] at ht
    split at ht
    case isTrue =>
      rcases List.mem_cons.1 ht with rfl | ht
      · exact List.not_mem_nil
      · exact ih ht
    case isFalse ne =>
      obtain ⟨first, later, he⟩ := List.exists_cons_of_ne_nil (List.splitOn_ne_nil c s)
      rw [he, List.modifyHead_cons] at ht
      rcases List.mem_cons.1 ht with rfl | ht
      · rw [List.mem_cons, not_or]
        exact ⟨fun same => ne (beq_of_eq same.symm), ih (he ▸ List.mem_cons_self)⟩
      · exact ih (he ▸ List.mem_cons_of_mem _ ht)

theorem removeLineComments_of_isPlain (hs : IsPlain s) : removeLineComments s = s := by
  have lines : (s.splitOn '\n').map cutLineComment = s.splitOn '\n' := by
    refine (List.map_congr_left fun line hl => ?_).trans (List.map_id _)
    exact cutLineComment_of_isPlain (hs.of_infix (infix_of_mem_splitOn hl))
  rw [removeLineComments, lines, List.intercalate_splitOn]

theorem removeComments_of_isPlain (hs : IsPlain s) : removeComments s = s := by
  rw [removeComments, removeBlockComments_of_unopened hs.noBlock,
    removeLineComments_of_isPlain hs]

theorem suffix_of_afterBlockEnd? {r : List Char} (h : afterBlockEnd? s = some r) : r <:+ s := by
  induction s with
  | nil => cases h
  | cons c s ih =>
    rw [afterBlockEnd?] at h
    split at h
    · obtain rfl := Option.some.inj h
      exact (List.tail_suffix s).trans (List.suffix_cons c s)
    · exact (ih h).trans (List.suffix_cons c s)

theorem suffix_of_afterBlockComment? {r : List Char} (h : afterBlockComment? s = some r) :
    r <:+ s := by
  unfold afterBlockComment? at h
  split at h
  case h_1 t => exact (suffix_of_afterBlockEnd? h).trans ⟨['/', '*'], rfl⟩
  case h_2 => cases h

theorem removeBlockComments_sublist (s : List Char) : (removeBlockComments s).Sublist s := by
  fun_induction removeBlockComments s with
  | case1 s r hr ih => exact ih.trans (suffix_of_afterBlockComment? hr).sublist
  | case2 => exact List.Sublist.refl _
  | case3 c r _ ih => exact ih.cons_cons c

theorem cutLineComment_sublist (s : List Char) : (cutLineComment s).Sublist s := by
  induction s with
  | nil => exact List.Sublist.refl _
  | cons c s ih =>
    rw [cutLineComment]
    split
    · exact List.nil_sublist _
    · exact ih.cons_cons c

theorem intercalate_map_sublist {f : List Char → List Char} (hf : ∀ t, (f t).Sublist t)
    (sep : List Char) (lines : List (List Char)) :
    (sep.intercalate (lines.map f)).Sublist (sep.intercalate lines) := by
  induction lines with
  | nil => exact List.Sublist.refl _
  | cons line lines ih =>
    cases lines with
    | nil => simpa using hf line
    | cons next lines =>
      rw [List.map_cons] at ih
      rw [List.map_cons, List.map_cons, List.intercalate_cons_cons, List.intercalate_cons_cons]
      exact ((hf line).append (List.Sublist.refl sep)).append ih

theorem removeComments_sublist (s : List Char) : (removeComments s).Sublist s := by
  have lines : (removeLineComments (removeBlockComments s)).Sublist (removeBlockComments s) := by
    have cut := intercalate_map_sublist cutLineComment_sublist ['\n']
      ((removeBlockComments s).splitOn '\n')
    rwa [List.intercalate_splitOn] at cut
  exact lines.trans (removeBlockComments_sublist s)

end AngularAtlas.Text
