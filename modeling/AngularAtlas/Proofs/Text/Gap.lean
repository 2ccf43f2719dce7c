import AngularAtlas.Proofs.Text.Comment
import AngularAtlas.Proofs.Text.Spacing

namespace AngularAtlas.Text

/-- Blanks, block comments, and line comments up to the end of their lines. -/
inductive Gap : List Char → Prop
  | nil : Gap []
  | blank {c : Char} {s : List Char} : isBlank c = true → Gap s → Gap (c :: s)
  | block {body s : List Char} : ¬ ['*', '/'] <:+: body → Gap s →
      Gap ('/' :: '*' :: (body ++ '*' :: '/' :: s))
  | line {body s : List Char} : '\n' ∉ body → ¬ ['/', '*'] <:+: '/' :: '/' :: body → Gap s →
      Gap ('/' :: '/' :: (body ++ '\n' :: s))

/-- A text consists of some tokens, with gaps around them as one likes. -/
inductive Commented : List Token → List Char → Prop
  | nil {s : List Char} : Gap s → Commented [] s
  | cons {gap s : List Char} {token : Token} {tokens : List Token} :
      Gap gap → Commented tokens s → Commented (token :: tokens) (gap ++ (token ++ s))

variable {s body gap : List Char} {c : Char} {token : Token} {tokens : List Token}

theorem gap_of_isBlank (hs : IsBlank s) : Gap s := by
  induction s with
  | nil => exact .nil
  | cons c s ih =>
    obtain ⟨hc, hs⟩ := List.forall_mem_cons.1 hs
    exact .blank hc (ih hs)

theorem commented_flatMap {pieces : List (List Char × Token)}
    (hg : ∀ piece ∈ pieces, Gap piece.1) :
    Commented (pieces.map (·.2)) (pieces.flatMap fun piece => piece.1 ++ piece.2) := by
  induction pieces with
  | nil => exact .nil .nil
  | cons piece pieces ih =>
    obtain ⟨first, later⟩ := List.forall_mem_cons.1 hg
    rw [List.flatMap_cons, List.append_assoc]
    exact .cons first (ih later)

theorem removeBlockComments_of_eq_none (h : afterBlockComment? (c :: s) = none) :
    removeBlockComments (c :: s) = c :: removeBlockComments s := by
  rw [removeBlockComments]
  split
  next he =>
    rw [h] at he
    cases he
  next => rfl

theorem removeBlockComments_cons (h : c = '/' → s.head? ≠ some '*') :
    removeBlockComments (c :: s) = c :: removeBlockComments s := by
  apply removeBlockComments_of_eq_none
  unfold afterBlockComment?
  split
  next he =>
    obtain ⟨rfl, rfl⟩ := List.cons.inj he
    exact absurd rfl (h rfl)
  next => rfl

theorem afterBlockEnd?_append (hb : ¬ ['*', '/'] <:+: body) (s : List Char) :
    afterBlockEnd? (body ++ '*' :: '/' :: s) = some s := by
  induction body with
  | nil => simp [afterBlockEnd?]
  | cons c body ih =>
    have later : ¬ ['*', '/'] <:+: body := fun h => hb (h.trans (List.suffix_cons c body).isInfix)
    rw [List.cons_append, afterBlockEnd?, if_neg, ih later]
    rintro ⟨rfl, h⟩
    cases body with
    | nil => simp at h
    | cons d body =>
      obtain rfl : d = '/' := by simpa using h
      exact hb ⟨[], body, rfl⟩

theorem removeBlockComments_block (hb : ¬ ['*', '/'] <:+: body) (s : List Char) :
    removeBlockComments ('/' :: '*' :: (body ++ '*' :: '/' :: s)) = removeBlockComments s := by
  have start : afterBlockComment? ('/' :: '*' :: (body ++ '*' :: '/' :: s)) = some s :=
    afterBlockEnd?_append hb s
  rw [removeBlockComments]
  split
  next he =>
    rw [start] at he
    rw [Option.some.inj he]
  next he =>
    rw [start] at he
    cases he

theorem removeBlockComments_append_cons (hb : ¬ ['/', '*'] <:+: body) (hc : c ≠ '*') (hc' : c ≠ '/')
    (s : List Char) :
    removeBlockComments (body ++ c :: s) = body ++ c :: removeBlockComments s := by
  induction body with
  | nil => exact removeBlockComments_cons fun h => absurd h hc'
  | cons d body ih =>
    have later : ¬ ['/', '*'] <:+: body := fun h => hb (h.trans (List.suffix_cons d body).isInfix)
    rw [List.cons_append, removeBlockComments_cons, ih later, List.cons_append]
    rintro rfl h
    cases body with
    | nil => exact hc (by simpa using h)
    | cons e body =>
      obtain rfl : e = '*' := by simpa using h
      exact hb ⟨[], body, rfl⟩

theorem removeBlockComments_append (ht : '/' ∉ token) (s : List Char) :
    removeBlockComments (token ++ s) = token ++ removeBlockComments s := by
  induction token with
  | nil => rfl
  | cons c token ih =>
    rw [List.mem_cons, not_or] at ht
    rw [List.cons_append, removeBlockComments_cons (fun h => absurd h.symm ht.1), ih ht.2,
      List.cons_append]

theorem removeLineComments_append_newline (hb : '\n' ∉ body) (s : List Char) :
    removeLineComments (body ++ '\n' :: s) =
      cutLineComment body ++ '\n' :: removeLineComments s := by
  obtain ⟨first, later, he, -⟩ := exists_splitOn_eq_cons s '\n'
  rw [removeLineComments, removeLineComments, List.splitOn_append_cons_self_of_not_mem hb, he]
  simp

theorem removeLineComments_of_not_mem (hb : '\n' ∉ body) :
    removeLineComments body = cutLineComment body := by
  rw [removeLineComments, List.splitOn_eq_singleton hb]
  simp

/-- A text in front of another one stands on its first line. -/
theorem exists_removeLineComments_append (s : List Char) :
    ∃ line later, removeLineComments s = cutLineComment line ++ later ∧
      ∀ front, '\n' ∉ front →
        removeLineComments (front ++ s) = cutLineComment (front ++ line) ++ later := by
  by_cases hs : '\n' ∈ s
  · obtain ⟨line, rest, rfl, hl⟩ := List.eq_append_cons_of_mem hs
    refine ⟨line, '\n' :: removeLineComments rest, removeLineComments_append_newline hl rest, ?_⟩
    intro front hf
    rw [← List.append_assoc, removeLineComments_append_newline]
    simp [hf, hl]
  · refine ⟨s, [], by rw [removeLineComments_of_not_mem hs, List.append_nil], ?_⟩
    intro front hf
    rw [removeLineComments_of_not_mem, List.append_nil]
    simp [hf, hs]

theorem ne_slash_of_isBlank (hc : isBlank c = true) : c ≠ '/' := by
  rintro rfl
  cases hc

theorem startsLineComment_cons (hb : isBlank c = false) (hc : c ≠ '/') (s : List Char) :
    startsLineComment (c :: s) = false := by
  have space : c ≠ ' ' := by
    rintro rfl
    cases hb
  have tab : c ≠ '\t' := by
    rintro rfl
    cases hb
  simp [startsLineComment, space, tab, List.isPrefixOf, Ne.symm hc]

theorem startsLineComment_of_isBlank (hc : isBlank c = true)
    (hs : startsLineComment (c :: s) = true) : startsLineComment s = true := by
  by_cases skipped : (c == ' ' || c == '\t') = true
  · rwa [startsLineComment, List.dropWhile_cons, if_pos skipped] at hs
  · rw [startsLineComment, List.dropWhile_cons, if_neg skipped] at hs
    simp [List.isPrefixOf, (ne_slash_of_isBlank hc).symm] at hs

theorem cutLineComment_of_starts (hs : startsLineComment s = true) : cutLineComment s = [] := by
  cases s with
  | nil => rfl
  | cons c s => rw [cutLineComment, if_pos hs]

theorem IsSolid.cutLineComment_append (solid : IsSolid token) (ht : '/' ∉ token)
    (s : List Char) : cutLineComment (token ++ s) = token ++ cutLineComment s := by
  have chars := solid.not_blank
  clear solid
  induction token with
  | nil => rfl
  | cons c token ih =>
    obtain ⟨hb, later⟩ := List.forall_mem_cons.1 chars
    rw [List.mem_cons, not_or] at ht
    have none := startsLineComment_cons hb (Ne.symm ht.1) (token ++ s)
    rw [List.cons_append, cutLineComment, none, if_neg (by decide), ih ht.2 later,
      List.cons_append]

theorem IsPhrase.cutLineComment_append (phrase : IsPhrase token) (ht : '/' ∉ token)
    (s : List Char) : cutLineComment (token ++ s) = token ++ cutLineComment s := by
  induction phrase with
  | word solid => exact solid.cutLineComment_append ht s
  | @space w t solid phrase ih =>
    rw [List.mem_append, List.mem_cons, not_or, not_or] at ht
    obtain ⟨front, -, back⟩ := ht
    -- no comment starts at the space, since it does not start at the word behind it
    have none : startsLineComment (' ' :: (t ++ s)) ≠ true := by
      obtain ⟨c, rest, rfl, hc⟩ := phrase.exists_eq_cons
      intro starts
      have := startsLineComment_of_isBlank rfl starts
      rw [List.mem_cons, not_or] at back
      rw [List.cons_append, startsLineComment_cons hc (Ne.symm back.1)] at this
      cases this
    rw [List.append_assoc, List.cons_append, solid.cutLineComment_append front, cutLineComment,
      if_neg none, ih back, List.append_assoc, List.cons_append]

theorem removeComments_newline (s : List Char) :
    removeComments ('\n' :: s) = '\n' :: removeComments s := by
  rw [removeComments, removeBlockComments_cons fun h => by simp at h]
  exact removeLineComments_append_newline List.not_mem_nil _

theorem removeComments_cons_of_isBlank (hc : isBlank c = true) (s : List Char) :
    removeComments (c :: s) = removeComments s ∨
      removeComments (c :: s) = c :: removeComments s := by
  by_cases newline : c = '\n'
  · subst newline
    exact .inr (removeComments_newline s)
  · obtain ⟨line, later, without, he⟩ := exists_removeLineComments_append (removeBlockComments s)
    have within := he [c] (by simpa using Ne.symm newline)
    rw [List.singleton_append, List.singleton_append, cutLineComment] at within
    rw [removeComments, removeComments,
      removeBlockComments_cons fun h => absurd h (ne_slash_of_isBlank hc), within, without]
    by_cases starts : startsLineComment (c :: line) = true
    · left
      rw [if_pos starts, cutLineComment_of_starts (startsLineComment_of_isBlank hc starts)]
    · right
      rw [if_neg starts, List.cons_append]

theorem removeComments_block (hb : ¬ ['*', '/'] <:+: body) (s : List Char) :
    removeComments ('/' :: '*' :: (body ++ '*' :: '/' :: s)) = removeComments s := by
  rw [removeComments, removeBlockComments_block hb, removeComments]

theorem removeComments_line (hn : '\n' ∉ body) (hb : ¬ ['/', '*'] <:+: '/' :: '/' :: body)
    (s : List Char) :
    removeComments ('/' :: '/' :: (body ++ '\n' :: s)) = '\n' :: removeComments s := by
  have newline : '\n' ∉ '/' :: '/' :: body := by simpa using hn
  have blocks := removeBlockComments_append_cons hb (c := '\n') (by decide) (by decide) s
  have lines := removeLineComments_append_newline newline (removeBlockComments s)
  rw [cutLineComment_of_starts (by rfl), List.nil_append] at lines
  rw [List.cons_append, List.cons_append] at blocks
  rw [removeComments, blocks]
  exact lines

theorem IsPhrase.removeComments_append (phrase : IsPhrase token) (ht : '/' ∉ token)
    (s : List Char) : removeComments (token ++ s) = token ++ removeComments s := by
  have newline : '\n' ∉ token := fun h => absurd (phrase.eq_space h rfl) (by decide)
  obtain ⟨line, later, without, he⟩ := exists_removeLineComments_append (removeBlockComments s)
  rw [removeComments, removeComments, removeBlockComments_append ht, he token newline, without,
    phrase.cutLineComment_append ht, List.append_assoc]

theorem Gap.exists_removeComments_append (hg : Gap gap) (s : List Char) :
    ∃ blanks, removeComments (gap ++ s) = blanks ++ removeComments s ∧ IsBlank blanks := by
  induction hg with
  | nil => exact ⟨[], rfl, isBlank_nil⟩
  | @blank c gap hc _ ih =>
    obtain ⟨blanks, he, hb⟩ := ih
    rw [List.cons_append]
    rcases removeComments_cons_of_isBlank hc (gap ++ s) with h | h
    · exact ⟨blanks, h.trans he, hb⟩
    · refine ⟨c :: blanks, ?_, List.forall_mem_cons.2 ⟨hc, hb⟩⟩
      rw [h, he, List.cons_append]
  | block hbody _ ih =>
    obtain ⟨blanks, he, hb⟩ := ih
    refine ⟨blanks, ?_, hb⟩
    simp only [List.cons_append, List.append_assoc]
    rw [removeComments_block hbody, he]
  | line hn hbody _ ih =>
    obtain ⟨blanks, he, hb⟩ := ih
    refine ⟨'\n' :: blanks, ?_, List.forall_mem_cons.2 ⟨rfl, hb⟩⟩
    simp only [List.cons_append, List.append_assoc]
    rw [removeComments_line hn hbody, he]

theorem Commented.spaced_removeComments (hs : Commented tokens s)
    (phrases : ∀ token ∈ tokens, IsPhrase token) (slash : '/' ∉ tokens.flatten) :
    Spaced tokens (removeComments s) := by
  induction hs with
  | @nil s hg =>
    obtain ⟨blanks, he, hb⟩ := hg.exists_removeComments_append []
    have empty : removeComments [] = [] := by decide +kernel
    rw [List.append_nil, empty, List.append_nil] at he
    exact he ▸ .nil hb
  | cons hg _ ih =>
    obtain ⟨first, later⟩ := List.forall_mem_cons.1 phrases
    rw [List.flatten_cons, List.mem_append, not_or] at slash
    obtain ⟨blanks, he, hb⟩ := hg.exists_removeComments_append _
    rw [he, first.removeComments_append slash.1]
    exact .cons hb (ih later slash.2)

end AngularAtlas.Text
