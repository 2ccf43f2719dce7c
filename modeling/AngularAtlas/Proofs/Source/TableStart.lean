import AngularAtlas.Proofs.Source.Literal
import AngularAtlas.Proofs.Text.Comment
import AngularAtlas.Proofs.Text.Search
import AngularAtlas.Source.Route
import Mathlib.Data.List.Chain

namespace AngularAtlas.Source

open Text

/-- Two characters side by side do not start a comment. -/
def NoComment (a b : Char) : Prop := a = '/' → b ≠ '/' ∧ b ≠ '*'

/-- Two characters side by side, blanks aside, do not open a route table. -/
def NoTable (a b : Char) : Prop := b = '[' → a ≠ '=' ∧ a ≠ '('

/-- A text in which something other than a slash, a star or a blank stands behind each slash, and
a colon before each opening square bracket. Two of them side by side are one again. -/
inductive Quiet : List Char → Prop
  | nil : Quiet []
  | char {c : Char} {s : List Char} : c ∉ ['/', '['] → Quiet s → Quiet (c :: s)
  | slash {c : Char} {s : List Char} : c ∉ ['/', '*', '['] → isBlank c = false → Quiet s →
      Quiet ('/' :: c :: s)
  | bracket {s : List Char} : Quiet s → Quiet (':' :: '[' :: s)

variable {s t r : List Char} {tokens : List Token} {items : List (List Token)} {comma : Bool}
  {a b c : Char}

theorem Quiet.append (hs : Quiet s) (ht : Quiet t) : Quiet (s ++ t) := by
  induction hs with
  | nil => exact ht
  | char hc _ ih => exact .char hc ih
  | slash hc hb _ ih => exact .slash hc hb ih
  | bracket _ ih => exact .bracket ih

theorem Quiet.filter (hs : Quiet s) : Quiet (s.filter (!isBlank ·)) := by
  induction hs with
  | nil => exact .nil
  | @char c s hc _ ih =>
    cases hb : isBlank c with
    | true => rwa [List.filter_cons_of_neg (by simp [hb])]
    | false =>
      rw [List.filter_cons_of_pos (by simp [hb])]
      exact .char hc ih
  | slash hc hb _ ih =>
    rw [List.filter_cons_of_pos (by decide), List.filter_cons_of_pos (by simp [hb])]
    exact .slash hc hb ih
  | bracket _ ih => exact .bracket ih

theorem quiet_of_forall (hs : ∀ c ∈ s, c ∉ ['/', '[']) : Quiet s := by
  induction s with
  | nil => exact .nil
  | cons c s ih =>
    obtain ⟨hc, hs⟩ := List.forall_mem_cons.1 hs
    exact .char hc (ih hs)

theorem quiet_of_all (hs : s.all (fun c => c != '/' && c != '[') = true) : Quiet s :=
  quiet_of_forall fun c hc => by simpa using List.all_eq_true.1 hs c hc

theorem quiet_separated (hi : ∀ item ∈ items, Quiet item.flatten) :
    Quiet (separated comma items).flatten := by
  refine separated_induction (P := fun tokens => Quiet tokens.flatten) .nil
    (quiet_of_all (by decide)) (fun ha hb => ?_) hi
  rw [List.flatten_append]
  exact ha.append hb

theorem quiet_bracketed (hs : Quiet tokens.flatten) (opener closer : Char)
    (ho : opener ∉ ['/', '[']) (hc : closer ∉ ['/', '[']) :
    Quiet (bracketed opener closer tokens).flatten := by
  have : Quiet (opener :: (tokens.flatten ++ [closer])) :=
    .char ho (hs.append (quiet_of_forall (List.forall_mem_singleton.2 hc)))
  simpa [bracketed] using this

theorem Quiet.isChain_cons (hs : Quiet s) (ha : a ≠ '/') :
    (a :: s).IsChain fun a b => NoComment a b ∧ NoTable a b := by
  -- each rule ends in a character other than a slash, which stands before what follows
  induction hs generalizing a with
  | nil => exact .singleton a
  | char hc _ ih =>
    simp only [List.mem_cons, List.not_mem_nil, or_false, not_or] at hc
    exact .cons_cons ⟨fun h => absurd h ha, fun h => absurd h hc.2⟩ (ih hc.1)
  | slash hc _ _ ih =>
    simp only [List.mem_cons, List.not_mem_nil, or_false, not_or] at hc
    refine .cons_cons ⟨fun h => absurd h ha, fun h => by simp at h⟩ ?_
    exact .cons_cons ⟨fun _ => ⟨hc.1, hc.2.1⟩, fun h => absurd h hc.2.2⟩ (ih hc.1)
  | bracket _ ih =>
    refine .cons_cons ⟨fun h => absurd h ha, fun h => by simp at h⟩ ?_
    exact .cons_cons ⟨fun h => by simp at h, fun _ => by decide⟩ (ih (by decide))

theorem Quiet.isChain_append (hs : Quiet s) (hf : '/' ∉ t) : (t ++ s).IsChain NoComment := by
  induction t with
  | nil =>
    have chain := hs.isChain_cons (a := ' ') (by decide)
    exact (List.isChain_cons.1 chain).2.imp fun _ _ h => h.1
  | cons c t ih =>
    rw [List.mem_cons, not_or] at hf
    exact List.isChain_cons.2 ⟨fun _ _ h => absurd h.symm hf.1, ih hf.2⟩

theorem Quiet.isChain (hs : Quiet s) : s.IsChain NoTable := by
  have chain := hs.isChain_cons (a := ' ') (by decide)
  exact (List.isChain_cons.1 chain).2.imp fun _ _ h => h.2

theorem isPlain_of_isChain (hs : (s.filter (!isBlank ·)).IsChain NoComment) : IsPlain s where
  noLine h := by
    have pair : ['/', '/'].IsChain NoComment := hs.infix (h.filter (!isBlank ·))
    exact (List.isChain_pair.1 pair rfl).1 rfl
  noBlock h := by
    have pair : ['/', '*'].IsChain NoComment := hs.infix (h.filter (!isBlank ·))
    exact (List.isChain_pair.1 pair rfl).2 rfl

theorem suffix_of_afterAny? {starts : List (List Char)} (h : afterAny? starts s = some r) :
    r <:+ s := by
  obtain ⟨w, -, hw⟩ := List.exists_of_findSome?_eq_some h
  exact suffix_of_isPrefixOf? hw

theorem skipBlanks_suffix (s : List Char) : skipBlanks s <:+ s := List.dropWhile_suffix _

theorem suffix_of_afterRoutesConstant? {before : Option Char}
    (h : afterRoutesConstant? before s = some r) : ('=' :: r) <:+ s := by
  simp only [afterRoutesConstant?, Option.bind_eq_bind, Option.bind_eq_some_iff] at h
  obtain ⟨_, -, s₁, h₁, h₂⟩ := h
  rw [← eq_cons_of_afterChar? h₂]
  exact (skipBlanks_suffix s₁).trans (suffix_of_isPrefixOf? h₁)

theorem suffix_of_afterRouterModule? (h : afterRouterModule? s = some r) : ('(' :: r) <:+ s := by
  simp only [afterRouterModule?, Option.bind_eq_bind, Option.bind_eq_some_iff] at h
  obtain ⟨s₁, h₁, s₂, h₂, s₃, h₃, h₄⟩ := h
  rw [← eq_cons_of_afterChar? h₄]
  refine (skipBlanks_suffix s₃).trans ((suffix_of_afterAny? h₃).trans ?_)
  have dot : s₂ <:+ skipBlanks s₁ := eq_cons_of_afterChar? h₂ ▸ List.suffix_cons _ _
  exact (skipBlanks_suffix s₂).trans
    (dot.trans ((skipBlanks_suffix s₁).trans (suffix_of_isPrefixOf? h₁)))

theorem filter_skipBlanks (s : List Char) :
    (skipBlanks s).filter (!isBlank ·) = s.filter (!isBlank ·) := by
  induction s with
  | nil => rfl
  | cons c s ih =>
    rw [skipBlanks, List.dropWhile_cons]
    split
    case isTrue h => exact ih.trans (List.filter_cons_of_neg (by simp [h])).symm
    case isFalse => rfl

/-- A route table is opened behind an equals sign or a parenthesis. -/
theorem exists_infix_of_tableStart? {before : Option Char} {found : List Char × List Char}
    (h : tableStart? before s = some found) :
    ∃ a, (a = '=' ∨ a = '(') ∧ [a, '['] <:+: s.filter (!isBlank ·) := by
  simp only [tableStart?, Option.bind_eq_bind, Option.bind_eq_some_iff] at h
  obtain ⟨s₁, h₁, s₂, h₂, -⟩ := h
  have opened : ∀ a, isBlank a = false → (a :: s₁) <:+ s → [a, '['] <:+: s.filter (!isBlank ·) := by
    intro a ha hs
    refine List.IsInfix.trans ?_ (hs.isInfix.filter (!isBlank ·))
    rw [List.filter_cons_of_pos (by simp [ha]), ← filter_skipBlanks, eq_cons_of_afterChar? h₂,
      List.filter_cons_of_pos (by decide)]
    exact ⟨[], _, rfl⟩
  rcases Option.or_eq_some_iff.1 h₁ with h | ⟨-, h⟩
  · exact ⟨'=', .inl rfl, opened '=' rfl (suffix_of_afterRoutesConstant? h)⟩
  · exact ⟨'(', .inr rfl, opened '(' rfl (suffix_of_afterRouterModule? h)⟩

theorem tableStart?_eq_none_of_ne (hc : c ≠ 'R') (before : Option Char) (r : List Char) :
    tableStart? before (c :: r) = none := by
  have constant : "Routes".toList.isPrefixOf? (c :: r) = none :=
    if_neg fun h => hc (eq_of_beq h).symm
  have module : "RouterModule".toList.isPrefixOf? (c :: r) = none :=
    if_neg fun h => hc (eq_of_beq h).symm
  simp only [tableStart?, afterRoutesConstant?, afterRouterModule?, constant, module,
    Option.bind_eq_bind, Option.bind_none, Option.bind_fun_none, Option.or_none]

theorem tableStart?_eq_none (hs : (s.filter (!isBlank ·)).IsChain NoTable) (before : Option Char) :
    tableStart? before s = none := by
  refine Option.eq_none_iff_forall_ne_some.2 fun found h => ?_
  obtain ⟨a, ha, hi⟩ := exists_infix_of_tableStart? h
  have pair : [a, '['].IsChain NoTable := hs.infix hi
  have other := List.isChain_pair.1 pair rfl
  exact ha.elim other.1 other.2

end AngularAtlas.Source
