import AngularAtlas.Text.Blank

/-!
Texts that are made of tokens with blanks before, between and after them. Main statement: the
operations that cut and collapse blanks leave the tokens of a text as they are.
-/

namespace AngularAtlas.Text

/-- A piece of text that is written without blanks. -/
abbrev Token := List Char

/-- There are only blanks. -/
def IsBlank (s : List Char) : Prop := ∀ c ∈ s, isBlank c = true

/-- There is something, and no blanks. -/
structure IsSolid (token : Token) : Prop where
  ne_nil : token ≠ []
  not_blank : ∀ c ∈ token, isBlank c = false

/-- Words with single spaces between them. -/
inductive IsPhrase : Token → Prop
  | word {w : Token} : IsSolid w → IsPhrase w
  | space {w t : Token} : IsSolid w → IsPhrase t → IsPhrase (w ++ ' ' :: t)

/-- A text consists of some tokens, with blanks around them as one likes. -/
inductive Spaced : List Token → List Char → Prop
  | nil {s : List Char} : IsBlank s → Spaced [] s
  | cons {gap s : List Char} {token : Token} {tokens : List Token} :
      IsBlank gap → Spaced tokens s → Spaced (token :: tokens) (gap ++ (token ++ s))

variable {s gap : List Char} {token : Token} {tokens later : List Token}

theorem isBlank_nil : IsBlank [] := fun _ h => nomatch h

theorem isBlank_space : IsBlank [' '] := by
  intro c hc
  rw [List.mem_singleton.1 hc]
  rfl

theorem IsBlank.append {a b : List Char} (ha : IsBlank a) (hb : IsBlank b) : IsBlank (a ++ b) :=
  fun c h => (List.mem_append.1 h).elim (ha c) (hb c)

theorem IsSolid.exists_eq_cons (solid : IsSolid token) :
    ∃ c rest, token = c :: rest ∧ isBlank c = false := by
  obtain ⟨c, rest, rfl⟩ := List.exists_cons_of_ne_nil solid.ne_nil
  exact ⟨c, rest, rfl, solid.not_blank c List.mem_cons_self⟩

theorem IsSolid.of_cons_cons {c d : Char} (solid : IsSolid (c :: d :: s)) : IsSolid (d :: s) :=
  ⟨List.cons_ne_nil _ _, fun x hx => solid.not_blank x (List.mem_cons_of_mem _ hx)⟩

theorem IsPhrase.exists_eq_cons (phrase : IsPhrase token) :
    ∃ c rest, token = c :: rest ∧ isBlank c = false := by
  cases phrase with
  | word solid => exact solid.exists_eq_cons
  | space solid _ =>
    obtain ⟨c, rest, rfl, hc⟩ := solid.exists_eq_cons
    exact ⟨c, rest ++ ' ' :: _, rfl, hc⟩

theorem IsPhrase.ne_nil (phrase : IsPhrase token) : token ≠ [] := by
  obtain ⟨c, rest, rfl, -⟩ := phrase.exists_eq_cons
  exact List.cons_ne_nil _ _

theorem IsPhrase.eq_space (phrase : IsPhrase token) {c : Char} (hc : c ∈ token)
    (blank : isBlank c = true) : c = ' ' := by
  induction phrase with
  | word solid => exact absurd blank (by simp [solid.not_blank c hc])
  | space solid _ ih =>
    rcases List.mem_append.1 hc with hc | hc
    · exact absurd blank (by simp [solid.not_blank c hc])
    · exact (List.mem_cons.1 hc).elim id ih

theorem IsSolid.append {a b : Token} (ha : IsSolid a) (hb : IsSolid b) : IsSolid (a ++ b) where
  ne_nil h := ha.ne_nil (List.append_eq_nil_iff.1 h).1
  not_blank c hc := (List.mem_append.1 hc).elim (ha.not_blank c) (hb.not_blank c)

theorem IsPhrase.append {a b : Token} (ha : IsPhrase a) (hb : IsPhrase b) :
    IsPhrase (a ++ b) := by
  induction ha with
  | word ha =>
    cases hb with
    | word hb => exact .word (ha.append hb)
    | space hb later =>
      rw [← List.append_assoc]
      exact .space (ha.append hb) later
  | space ha _ ih =>
    rw [List.append_assoc, List.cons_append]
    exact .space ha ih

theorem IsPhrase.append_space {a b : Token} (ha : IsPhrase a) (hb : IsPhrase b) :
    IsPhrase (a ++ ' ' :: b) := by
  induction ha with
  | word ha => exact .space ha hb
  | space ha _ ih =>
    rw [List.append_assoc, List.cons_append]
    exact .space ha ih

theorem Spaced.blank_append (hs : Spaced tokens s) (hg : IsBlank gap) :
    Spaced tokens (gap ++ s) := by
  cases hs with
  | nil hs => exact .nil (hg.append hs)
  | cons hgap hs =>
    rw [← List.append_assoc]
    exact .cons (hg.append hgap) hs

theorem Spaced.append {a b : List Char} (ha : Spaced tokens a) (hb : Spaced later b) :
    Spaced (tokens ++ later) (a ++ b) := by
  induction ha with
  | nil ha => exact hb.blank_append ha
  | cons hgap _ ih =>
    rw [List.append_assoc, List.append_assoc]
    exact .cons hgap ih

theorem Spaced.exists_append (hs : Spaced (tokens ++ later) s) :
    ∃ a b, s = a ++ b ∧ Spaced tokens a ∧ Spaced later b := by
  induction tokens generalizing s with
  | nil => exact ⟨[], s, rfl, .nil isBlank_nil, hs⟩
  | cons token tokens ih =>
    cases hs with
    | cons hgap hs =>
      obtain ⟨a, b, rfl, ha, hb⟩ := ih hs
      exact ⟨_, b, by simp only [List.append_assoc], .cons hgap ha, hb⟩

theorem Spaced.append_blank (hs : Spaced tokens s) (hg : IsBlank gap) :
    Spaced tokens (s ++ gap) := by
  simpa using hs.append (.nil hg)

theorem Spaced.exists_append_cons (hs : Spaced (tokens ++ token :: later) s) :
    ∃ a b, s = a ++ (token ++ b) ∧ Spaced tokens a ∧ Spaced later b := by
  obtain ⟨a, b, rfl, ha, hb⟩ := hs.exists_append
  cases hb with
  | @cons gap b _ _ hgap hb =>
    exact ⟨a ++ gap, b, (List.append_assoc ..).symm, ha.append_blank hgap, hb⟩

theorem Spaced.exists_cons (hs : Spaced (token :: tokens) s) :
    ∃ gap rest, s = gap ++ (token ++ rest) ∧ IsBlank gap ∧ Spaced tokens rest := by
  cases hs with
  | @cons gap rest _ _ hgap hs => exact ⟨gap, rest, rfl, hgap, hs⟩

theorem Spaced.exists_singleton (hs : Spaced [token] s) :
    ∃ a b, s = a ++ (token ++ b) ∧ IsBlank a ∧ IsBlank b := by
  cases hs with
  | @cons gap rest _ _ hgap hs =>
    cases hs with
    | nil hb => exact ⟨gap, rest, rfl, hgap, hb⟩

theorem Spaced.isBlank_or_mem (hs : Spaced tokens s) {c : Char} (hc : c ∈ s) :
    isBlank c = true ∨ c ∈ tokens.flatten := by
  induction hs with
  | nil hs => exact .inl (hs c hc)
  | cons hgap _ ih =>
    rw [List.flatten_cons]
    rcases List.mem_append.1 hc with hc | hc
    · exact .inl (hgap c hc)
    · rcases List.mem_append.1 hc with hc | hc
      · exact .inr (List.mem_append_left _ hc)
      · exact (ih hc).imp_right (List.mem_append_right _)

theorem spaced_flatMap (tokens : List Token) :
    Spaced tokens (tokens.flatMap fun token => token ++ [' ']) := by
  induction tokens with
  | nil => exact .nil isBlank_nil
  | cons token tokens ih =>
    rw [List.flatMap_cons, List.append_assoc]
    exact .cons isBlank_nil (ih.blank_append isBlank_space)

theorem Spaced.filter_eq (hs : Spaced tokens s) :
    s.filter (!isBlank ·) = tokens.flatten.filter (!isBlank ·) := by
  induction hs with
  | nil hs =>
    refine List.filter_eq_nil_iff.2 fun c hc => ?_
    simp [hs c hc]
  | cons hgap _ ih =>
    rw [List.filter_append, List.filter_append, ih, List.flatten_cons, List.filter_append,
      List.filter_eq_nil_iff.2 fun c hc => by simp [hgap c hc], List.nil_append]

theorem skipBlanks_append (hg : IsBlank gap) (s : List Char) :
    skipBlanks (gap ++ s) = skipBlanks s := by
  induction gap with
  | nil => rfl
  | cons c gap ih =>
    obtain ⟨hc, hg⟩ := List.forall_mem_cons.1 hg
    rw [List.cons_append, skipBlanks, List.dropWhile_cons, if_pos hc]
    exact ih hg

theorem skipBlanks_of_not_blank {c : Char} (hc : isBlank c = false) (rest : List Char) :
    skipBlanks (c :: rest) = c :: rest := by
  simp [skipBlanks, hc]

theorem exists_append_skipBlanks (s : List Char) : ∃ gap, IsBlank gap ∧ s = gap ++ skipBlanks s :=
  ⟨s.takeWhile isBlank, List.all_eq_true.1 List.all_takeWhile,
    List.takeWhile_append_dropWhile.symm⟩

/-- Where a character that is not blank comes first, it has only blanks in front of it. -/
theorem exists_of_head?_skipBlanks {c : Char} (h : (skipBlanks s).head? = some c) :
    ∃ gap rest, IsBlank gap ∧ skipBlanks s = c :: rest ∧ s = gap ++ c :: rest := by
  obtain ⟨rest, hr⟩ := List.head?_eq_some_iff.1 h
  obtain ⟨gap, hg, he⟩ := exists_append_skipBlanks s
  exact ⟨gap, rest, hg, hr, hr ▸ he⟩

theorem IsPhrase.skipBlanks_append (phrase : IsPhrase token) (s : List Char) :
    skipBlanks (token ++ s) = token ++ s := by
  obtain ⟨c, rest, rfl, hc⟩ := phrase.exists_eq_cons
  exact skipBlanks_of_not_blank hc _

theorem Spaced.exists_skipBlanks (hs : Spaced (token :: tokens) s) (phrase : IsPhrase token) :
    ∃ rest, skipBlanks s = token ++ rest ∧ Spaced tokens rest := by
  cases hs with
  | @cons gap rest _ _ hgap hs =>
    refine ⟨rest, ?_, hs⟩
    rw [Text.skipBlanks_append hgap, phrase.skipBlanks_append]

theorem trimEnd_append_of_isBlank (hg : IsBlank gap) (s : List Char) :
    trimEnd (s ++ gap) = trimEnd s := by
  have blank : IsBlank gap.reverse := fun c hc => hg c (List.mem_reverse.1 hc)
  have := skipBlanks_append blank s.reverse
  rw [trimEnd, trimEnd, List.reverse_append]
  exact congrArg List.reverse this

theorem IsSolid.trimEnd_append (solid : IsSolid token) (s : List Char) :
    trimEnd (s ++ token) = s ++ token := by
  have reversed : IsSolid token.reverse :=
    ⟨fun h => solid.ne_nil (List.reverse_eq_nil_iff.1 h),
      fun c hc => solid.not_blank c (List.mem_reverse.1 hc)⟩
  have := (IsPhrase.word reversed).skipBlanks_append s.reverse
  rw [trimEnd, List.reverse_append]
  rw [skipBlanks] at this
  rw [this, List.reverse_append, List.reverse_reverse, List.reverse_reverse]

theorem IsPhrase.trimEnd_append (phrase : IsPhrase token) (s : List Char) :
    trimEnd (s ++ token) = s ++ token := by
  induction phrase generalizing s with
  | word solid => exact solid.trimEnd_append s
  | @space w t _ _ ih => simpa using ih (s ++ (w ++ [' ']))

theorem trim_of_isBlank (hs : IsBlank s) : trim s = [] := by
  have := skipBlanks_append hs []
  rw [List.append_nil] at this
  rw [trim, this]
  rfl

theorem Spaced.exists_trimEnd (hs : Spaced tokens s) (phrases : ∀ t ∈ tokens, IsPhrase t)
    (ht : IsPhrase token) (front : List Char) :
    ∃ rest, trimEnd (front ++ (token ++ s)) = front ++ (token ++ rest) ∧ Spaced tokens rest ∧
      (tokens = [] → rest = []) := by
  induction hs generalizing token front with
  | nil hs =>
    refine ⟨[], ?_, .nil isBlank_nil, fun _ => rfl⟩
    rw [← List.append_assoc, trimEnd_append_of_isBlank hs, ht.trimEnd_append, List.append_nil]
  | @cons gap s next tokens hgap _ ih =>
    obtain ⟨first, later⟩ := List.forall_mem_cons.1 phrases
    obtain ⟨rest, he, hr, -⟩ := ih later first (front ++ token ++ gap)
    refine ⟨gap ++ (next ++ rest), ?_, .cons hgap hr, fun h => nomatch h⟩
    simpa only [List.append_assoc] using he

theorem Spaced.exists_trim (hs : Spaced (token :: tokens) s)
    (phrases : ∀ t ∈ token :: tokens, IsPhrase t) :
    ∃ rest, trim s = token ++ rest ∧ Spaced tokens rest ∧ (tokens = [] → rest = []) := by
  obtain ⟨first, later⟩ := List.forall_mem_cons.1 phrases
  obtain ⟨rest, he, hr⟩ := hs.exists_skipBlanks first
  rw [trim, he]
  exact hr.exists_trimEnd later first []

theorem Spaced.trim (hs : Spaced tokens s) (phrases : ∀ t ∈ tokens, IsPhrase t) :
    Spaced tokens (trim s) := by
  cases tokens with
  | nil =>
    cases hs with
    | nil hs => exact trim_of_isBlank hs ▸ .nil isBlank_nil
  | cons token tokens =>
    obtain ⟨rest, he, hr, -⟩ := hs.exists_trim phrases
    exact he ▸ .cons isBlank_nil hr

theorem Spaced.trim_eq (hs : Spaced [token] s) (phrase : IsPhrase token) :
    Text.trim s = token := by
  obtain ⟨rest, he, -, hr⟩ := hs.exists_trim (List.forall_mem_singleton.2 phrase)
  rw [he, hr rfl, List.append_nil]

theorem words_ne_nil {c : Char} (hc : isBlank c = false) (rest : List Char) :
    words (c :: rest) ≠ [] := by
  rw [words, if_neg (by simp [hc])]
  split
  · exact List.cons_ne_nil _ _
  case isFalse h =>
    cases rest with
    | nil => simp at h
    | cons d rest =>
      have := words_ne_nil (c := d) (by simpa using h) rest
      cases hw : words (d :: rest) with
      | nil => exact absurd hw this
      | cons w ws => simp

theorem words_of_isBlank (hs : IsBlank s) : words s = [] := by
  induction s with
  | nil => rfl
  | cons c s ih =>
    obtain ⟨hc, hs⟩ := List.forall_mem_cons.1 hs
    rw [words_cons_of_isBlank hc]
    exact ih hs

theorem collapse_of_isBlank (hs : IsBlank s) : collapse s = [] := by
  rw [collapse, words_of_isBlank hs]
  rfl

theorem collapse_append (hg : IsBlank gap) (s : List Char) : collapse (gap ++ s) = collapse s := by
  induction gap with
  | nil => rfl
  | cons c gap ih =>
    obtain ⟨hc, hg⟩ := List.forall_mem_cons.1 hg
    rw [List.cons_append, collapse, words_cons_of_isBlank hc]
    exact ih hg

theorem exists_collapse_cons {c : Char} (hc : isBlank c = false) (s : List Char) :
    ∃ gap, collapse (c :: s) = c :: (gap ++ collapse s) ∧ IsBlank gap ∧
      (s.head?.any (!isBlank ·) → gap = []) := by
  unfold collapse
  rw [words, if_neg (by simp [hc])]
  split
  case isTrue h =>
    cases words s with
    | nil => exact ⟨[], by simp, isBlank_nil, fun _ => rfl⟩
    | cons w ws =>
      refine ⟨[' '], by simp, isBlank_space, fun hs => ?_⟩
      cases s with
      | nil => simp at hs
      | cons d s => simp_all
  case isFalse h =>
    refine ⟨[], ?_, isBlank_nil, fun _ => rfl⟩
    cases s with
    | nil => simp at h
    | cons d s =>
      obtain ⟨w, ws, hw⟩ := List.exists_cons_of_ne_nil (words_ne_nil (by simpa using h) s)
      rw [hw]
      cases ws <;> simp

theorem isSolid_of_mem_words {w : List Char} (h : w ∈ words s) : IsSolid w := by
  induction s generalizing w with
  | nil => cases h
  | cons c s ih =>
    rw [words] at h
    split at h
    case isTrue => exact ih h
    case isFalse hc =>
      have single : IsSolid [c] :=
        ⟨List.cons_ne_nil _ _, fun d hd => by simpa [List.mem_singleton.1 hd] using hc⟩
      split at h
      case isTrue =>
        rcases List.mem_cons.1 h with rfl | h
        · exact single
        · exact ih h
      case isFalse =>
        cases hw : words s with
        | nil => simp [hw] at h
        | cons v vs =>
          rw [hw, List.modifyHead_cons] at h
          rcases List.mem_cons.1 h with rfl | h
          · exact single.append (ih (hw ▸ List.mem_cons_self))
          · exact ih (hw ▸ List.mem_cons_of_mem _ h)

theorem isPhrase_collapse (ne : collapse s ≠ []) : IsPhrase (collapse s) := by
  have solid : ∀ w ∈ words s, IsSolid w := fun _ => isSolid_of_mem_words
  rw [collapse] at ne ⊢
  generalize words s = ws at solid ne
  induction ws with
  | nil => exact absurd rfl ne
  | cons w ws ih =>
    obtain ⟨first, later⟩ := List.forall_mem_cons.1 solid
    cases ws with
    | nil => simpa using IsPhrase.word first
    | cons v ws =>
      have phrase : IsPhrase ([' '].intercalate (v :: ws)) := by
        refine ih later ?_
        have := (List.forall_mem_cons.1 later).1.ne_nil
        cases ws <;> simp [this]
      simpa using IsPhrase.space first phrase

/-- Collapsing changes nothing but blanks. -/
theorem filter_collapse (s : List Char) :
    (collapse s).filter (!isBlank ·) = s.filter (!isBlank ·) := by
  induction s with
  | nil => rfl
  | cons c s ih =>
    by_cases hc : isBlank c = true
    · rw [collapse, words_cons_of_isBlank hc, List.filter_cons_of_neg (by simp [hc])]
      exact ih
    · obtain ⟨gap, he, hg, -⟩ := exists_collapse_cons (Bool.not_eq_true _ ▸ hc) s
      have nothing : gap.filter (!isBlank ·) = [] :=
        List.filter_eq_nil_iff.2 fun d mem => by simp [hg d mem]
      rw [he, List.filter_cons_of_pos (by simp [hc]), List.filter_append, nothing, List.nil_append,
        ih, List.filter_cons_of_pos (by simp [hc])]

theorem IsSolid.exists_collapse_append (solid : IsSolid token) (s : List Char) :
    ∃ gap, collapse (token ++ s) = token ++ (gap ++ collapse s) ∧ IsBlank gap := by
  obtain ⟨c, rest, rfl, hc⟩ := solid.exists_eq_cons
  induction rest generalizing c with
  | nil =>
    obtain ⟨gap, he, hg, -⟩ := exists_collapse_cons hc s
    exact ⟨gap, he, hg⟩
  | cons d rest ih =>
    have hd : isBlank d = false := solid.not_blank d (by simp)
    obtain ⟨gap, he, hg⟩ := ih d hd solid.of_cons_cons
    obtain ⟨none, hc, -, hn⟩ := exists_collapse_cons hc (d :: rest ++ s)
    refine ⟨gap, ?_, hg⟩
    rw [List.cons_append, hc, hn (by simp [hd]), he]
    rfl

theorem IsSolid.words_append (solid : IsSolid token) (hs : s.head?.all isBlank = true) :
    words (token ++ s) = token :: words s := by
  obtain ⟨c, rest, rfl, hc⟩ := solid.exists_eq_cons
  induction rest generalizing c with
  | nil => simp [words, hc, hs]
  | cons d rest ih =>
    have hd : isBlank d = false := solid.not_blank d (by simp)
    rw [List.cons_append, words, ih d hd solid.of_cons_cons]
    simp [hc, hd]

theorem IsPhrase.exists_collapse_append (phrase : IsPhrase token) (s : List Char) :
    ∃ gap, Text.collapse (token ++ s) = token ++ (gap ++ Text.collapse s) ∧ IsBlank gap := by
  induction phrase with
  | word solid => exact solid.exists_collapse_append s
  | @space w t solid phrase ih =>
    obtain ⟨gap, he, hg⟩ := ih
    refine ⟨gap, ?_, hg⟩
    obtain ⟨c, rest, rfl, hc⟩ := phrase.exists_eq_cons
    obtain ⟨v, vs, hw⟩ := List.exists_cons_of_ne_nil (words_ne_nil hc (rest ++ s))
    rw [Text.collapse, List.cons_append, hw] at he
    rw [Text.collapse, List.append_assoc, List.cons_append, solid.words_append rfl,
      words_cons_of_isBlank rfl, List.cons_append, hw]
    simpa using he

theorem IsPhrase.collapse_append_of_isBlank (phrase : IsPhrase token) (hg : IsBlank gap) :
    Text.collapse (token ++ gap) = token := by
  induction phrase with
  | word solid =>
    have start : gap.head?.all isBlank = true := by
      cases gap with
      | nil => rfl
      | cons c gap => exact hg c List.mem_cons_self
    rw [Text.collapse, solid.words_append start, words_of_isBlank hg]
    simp
  | @space w t solid phrase ih =>
    obtain ⟨c, rest, rfl, hc⟩ := phrase.exists_eq_cons
    obtain ⟨v, vs, hw⟩ := List.exists_cons_of_ne_nil (words_ne_nil hc (rest ++ gap))
    rw [Text.collapse, List.cons_append, hw] at ih
    rw [Text.collapse, List.append_assoc, List.cons_append, solid.words_append rfl,
      words_cons_of_isBlank rfl, List.cons_append, hw]
    simpa using ih

theorem Spaced.collapse_eq (hs : Spaced [token] s) (phrase : IsPhrase token) :
    Text.collapse s = token := by
  obtain ⟨a, b, rfl, ha, hb⟩ := hs.exists_singleton
  rw [collapse_append ha, phrase.collapse_append_of_isBlank hb]

/-- Collapsing a text keeps the tokens at its start apart from what stands behind them. -/
theorem Spaced.exists_collapse_append (hs : Spaced tokens s) (phrases : ∀ t ∈ tokens, IsPhrase t)
    (later : List Char) :
    ∃ r, Text.collapse (s ++ later) = r ++ Text.collapse later ∧ Spaced tokens r := by
  induction hs with
  | nil hs => exact ⟨[], collapse_append hs later, .nil isBlank_nil⟩
  | cons hgap _ ih =>
    obtain ⟨first, phrases⟩ := List.forall_mem_cons.1 phrases
    obtain ⟨r, he, hr⟩ := ih phrases
    obtain ⟨gap, hc, hg⟩ := first.exists_collapse_append _
    refine ⟨_, ?_, .cons isBlank_nil (hr.blank_append hg)⟩
    rw [List.append_assoc, List.append_assoc, collapse_append hgap, hc, he]
    simp only [List.nil_append, List.append_assoc]

theorem Spaced.collapse (hs : Spaced tokens s) (phrases : ∀ t ∈ tokens, IsPhrase t) :
    Spaced tokens (collapse s) := by
  obtain ⟨r, he, hr⟩ := hs.exists_collapse_append phrases []
  rw [List.append_nil] at he
  exact he ▸ hr.append_blank isBlank_nil

end AngularAtlas.Text
