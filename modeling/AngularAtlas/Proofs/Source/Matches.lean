import AngularAtlas.Component.Basic
import AngularAtlas.Proofs.Source.SectionSearch
import AngularAtlas.Proofs.Text.Finds
import AngularAtlas.Source.DecoratedClass

namespace AngularAtlas.Source

open Text

variable {s r w key : List Char} {before : Option Char} {c : Char}

theorem suffix_of_afterChar? (h : afterChar? c s = some r) : r <:+ s :=
  eq_cons_of_afterChar? h ▸ List.suffix_cons c r

theorem suffix_of_afterIgnoringCase? (h : afterIgnoringCase? w s = some r) : r <:+ s := by
  obtain ⟨start, rfl, -⟩ := afterIgnoringCase?_eq_some_iff.1 h
  exact List.suffix_append start r

theorem skipBlanks1?_eq_some_iff : skipBlanks1? s = some r ↔
    ∃ c t, s = c :: t ∧ isBlank c = true ∧ r = skipBlanks t := by
  cases s with
  | nil => simp [skipBlanks1?]
  | cons c t =>
    rw [skipBlanks1?, Option.ite_none_right_eq_some, Option.some.injEq]
    constructor
    · rintro ⟨hc, rfl⟩
      exact ⟨c, t, rfl, hc, rfl⟩
    · rintro ⟨d, t', he, hc, rfl⟩
      obtain ⟨rfl, rfl⟩ := List.cons.inj he
      exact ⟨hc, rfl⟩

theorem suffix_of_skipBlanks1? (h : skipBlanks1? s = some r) : r <:+ s := by
  obtain ⟨c, t, rfl, -, rfl⟩ := skipBlanks1?_eq_some_iff.1 h
  exact (skipBlanks_suffix t).trans (List.suffix_cons c t)

theorem skipKeyword_suffix (w s : List Char) : skipKeyword w s <:+ s := by
  rw [skipKeyword]
  cases h : (afterIgnoringCase? w s).bind skipBlanks1? with
  | none => exact List.suffix_rfl
  | some t =>
    obtain ⟨u, hu, ht⟩ := Option.bind_eq_some_iff.1 h
    exact (suffix_of_skipBlanks1? ht).trans (suffix_of_afterIgnoringCase? hu)

theorem opens_of_sectionStart? (h : sectionStart? key before s = some ((), r)) :
    r.head? = some '[' ∧ r <:+ s := by
  simp only [sectionStart?, Option.bind_eq_bind, Option.bind_eq_some_iff] at h
  obtain ⟨_, -, s₁, h₁, s₂, h₂, _, opened, he⟩ := h
  obtain rfl : skipBlanks s₂ = r := (Prod.mk.inj (Option.some.inj he)).2
  refine ⟨(Option.guard_eq_some' _).1 opened, (skipBlanks_suffix s₂).trans ?_⟩
  exact (suffix_of_afterChar? h₂).trans
    ((skipBlanks_suffix s₁).trans (suffix_of_afterIgnoringCase? h₁))

theorem opens_of_constructorStart? (h : constructorStart? before s = some ((), r)) :
    r.head? = some '(' ∧ r <:+ s := by
  simp only [constructorStart?, Option.bind_eq_bind, Option.bind_eq_some_iff] at h
  obtain ⟨_, -, s₁, h₁, _, opened, he⟩ := h
  obtain rfl : skipBlanks s₁ = r := (Prod.mk.inj (Option.some.inj he)).2
  exact ⟨(Option.guard_eq_some' _).1 opened,
    (skipBlanks_suffix s₁).trans (suffix_of_isPrefixOf? h₁)⟩

theorem opens_of_decoratorStart? (h : Component.decoratorStart? before s = some ((), r)) :
    r.head? = some '(' ∧ r <:+ s := by
  simp only [Component.decoratorStart?, Option.bind_eq_bind, Option.bind_eq_some_iff] at h
  obtain ⟨s₁, h₁, _, opened, he⟩ := h
  obtain rfl : skipBlanks s₁ = r := (Prod.mk.inj (Option.some.inj he)).2
  exact ⟨(Option.guard_eq_some' _).1 opened,
    (skipBlanks_suffix s₁).trans (suffix_of_isPrefixOf? h₁)⟩

theorem opens_of_memberDecorator? {kind : MemberKind} {t : List Char}
    (h : memberDecorator? before s = some ((kind, t), r)) : t.head? = some '(' ∧ t <:+ s := by
  simp only [memberDecorator?, Option.bind_eq_bind, Option.bind_eq_some_iff] at h
  obtain ⟨s₁, h₁, h₂⟩ := h
  obtain ⟨kind', -, h₃⟩ := List.exists_of_findSome?_eq_some h₂
  obtain ⟨s₂, h₄, s₃, h₅, he⟩ := by
    simpa only [Option.bind_eq_some_iff] using h₃
  obtain rfl : skipBlanks s₂ = t := (Prod.mk.inj (Prod.mk.inj (Option.some.inj he)).1).2
  refine ⟨by rw [eq_cons_of_afterChar? h₅]; rfl, (skipBlanks_suffix s₂).trans ?_⟩
  exact (suffix_of_isPrefixOf? h₄).trans (suffix_of_afterChar? h₁)

theorem opens_of_tableStart? {t : List Char} (h : tableStart? before s = some (t, r)) :
    t.head? = some '[' ∧ t <:+ s := by
  simp only [tableStart?, Option.bind_eq_bind, Option.bind_eq_some_iff] at h
  obtain ⟨s₁, h₁, s₂, h₂, he⟩ := h
  obtain rfl : skipBlanks s₁ = t := (Prod.mk.inj (Option.some.inj he)).1
  refine ⟨by rw [eq_cons_of_afterChar? h₂]; rfl, (skipBlanks_suffix s₁).trans ?_⟩
  rcases Option.or_eq_some_iff.1 h₁ with h | ⟨-, h⟩
  · exact (List.suffix_cons _ _).trans (suffix_of_afterRoutesConstant? h)
  · exact (List.suffix_cons _ _).trans (suffix_of_afterRouterModule? h)

theorem suffix_of_classHead? {name : List Char} (h : classHead? s = some (name, r)) : r <:+ s := by
  simp only [classHead?, Option.bind_eq_bind, Option.bind_eq_some_iff] at h
  obtain ⟨s₁, h₁, s₂, h₂, s₃, h₃, s₄, h₄, s₅, h₅, _, -, he⟩ := h
  obtain rfl : s₅.dropWhile isWord = r := (Prod.mk.inj (Option.some.inj he)).2
  have name : s₅.dropWhile isWord <:+ s₄ :=
    (List.dropWhile_suffix _).trans (suffix_of_skipBlanks1? h₅)
  have word : s₄ <:+ s₃ := (suffix_of_afterIgnoringCase? h₄).trans
    ((skipKeyword_suffix _ _).trans (skipKeyword_suffix _ _))
  have start : s₃ <:+ skipBlanks s₁ :=
    (suffix_of_skipBlanks1? h₃).trans (suffix_of_afterIgnoringCase? h₂)
  have bracket : skipBlanks s₁ <:+ s :=
    (skipBlanks_suffix s₁).trans ((suffix_of_afterChar? h₁).trans (skipBlanks_suffix s))
  exact name.trans (word.trans (start.trans bracket))

/-- The metadata of a class is taken from a text, which goes on with what is left behind it. -/
structure Finding.IsIn (found : Finding) (s : List Char) : Prop where
  metadata : ∀ m ∈ found.metadata, m.Sublist s
  rest : found.rest <:+ s

theorem Finding.IsIn.of_suffix {found : Finding} (h : found.IsIn r) (suffix : r <:+ s) :
    found.IsIn s :=
  ⟨fun m mem => (h.metadata m mem).trans suffix.sublist, h.rest.trans suffix⟩

theorem exists_of_metadataThenHead? {found : Finding} (h : metadataThenHead? s = some found) :
    ∃ metadata behind, s = metadata ++ behind ∧ found.metadata = some metadata ∧
      classHead? behind = some (found.name, found.rest) := by
  induction s generalizing found with
  | nil => cases h
  | cons c s ih =>
    rw [metadataThenHead?] at h
    split at h
    case h_1 name rest head =>
      obtain rfl := Option.some.inj h
      split at head
      case isTrue hc => exact ⟨['}'], s, by rw [hc]; rfl, rfl, head⟩
      case isFalse => cases head
    case h_2 =>
      obtain ⟨later, read, rfl⟩ := Option.map_eq_some_iff.1 h
      obtain ⟨metadata, behind, rfl, hm, head⟩ := ih read
      exact ⟨c :: metadata, behind, rfl, by rw [hm]; rfl, head⟩

/-- A head starts with `@`, and right behind its metadata stands the head of a class. Only the
metadata of an injectable may be missing. -/
theorem exists_of_decoratedHead? {decorator : Decorator} {found : Finding}
    (h : decoratedHead? decorator before s = some (found, r)) :
    ∃ t behind, s = '@' :: t ∧ found.metadata.getD [] ++ behind <:+ t ∧
      classHead? behind = some (found.name, found.rest) ∧ found.rest = r ∧
      (decorator ≠ .injectable → ∃ m, found.metadata = some m) := by
  simp only [decoratedHead?, Option.bind_eq_bind, Option.bind_eq_some_iff] at h
  obtain ⟨s₁, h₁, s₂, h₂, s₃, h₃, h⟩ := h
  have suffix : skipBlanks s₃ <:+ s₁ :=
    (skipBlanks_suffix s₃).trans ((suffix_of_afterChar? h₃).trans ((skipBlanks_suffix s₂).trans
      (suffix_of_afterIgnoringCase? h₂)))
  split at h
  case h_1 t opened =>
    rw [opened] at suffix
    split at h
    case isTrue injectable =>
      obtain ⟨_, mapped, ⟨⟩⟩ := Option.bind_eq_some_iff.1 h
      obtain ⟨later, read, rfl⟩ := Option.map_eq_some_iff.1 mapped
      obtain ⟨metadata, behind, rfl, hm, head⟩ := exists_of_metadataThenHead? read
      refine ⟨s₁, behind, eq_cons_of_afterChar? h₁, ?_, head, rfl, fun other => ?_⟩
      · simpa [hm] using suffix
      · exact absurd injectable other
    case isFalse =>
      cases t with
      | nil => cases h
      | cons c t =>
        obtain ⟨_, mapped, ⟨⟩⟩ := Option.bind_eq_some_iff.1 h
        obtain ⟨later, read, rfl⟩ := Option.map_eq_some_iff.1 mapped
        obtain ⟨metadata, behind, rfl, hm, head⟩ := exists_of_metadataThenHead? read
        refine ⟨s₁, behind, eq_cons_of_afterChar? h₁, ?_, head, rfl, fun _ => ?_⟩
        · simpa [hm] using suffix
        · exact ⟨'\x7b' :: c :: metadata, by rw [hm]; rfl⟩
  case h_2 =>
    split at h
    case isTrue injectable =>
      obtain ⟨_, mapped, ⟨⟩⟩ := Option.bind_eq_some_iff.1 h
      obtain ⟨⟨name, rest⟩, head, rfl⟩ := Option.map_eq_some_iff.1 mapped
      exact ⟨s₁, skipBlanks s₃, eq_cons_of_afterChar? h₁, suffix, head, rfl,
        fun other => absurd injectable other⟩
    case isFalse => cases h

/-- A head starts with `@` and is taken from the text behind it, together with metadata. Only that
of an injectable may be missing. -/
structure IsHead (decorator : Decorator) (found : Finding) (r t : List Char) : Prop where
  isIn : found.IsIn t
  rest : found.rest = r
  metadata : decorator ≠ .injectable → ∃ m, found.metadata = some m

theorem exists_isHead {decorator : Decorator} {found : Finding}
    (h : decoratedHead? decorator before s = some (found, r)) :
    ∃ t, s = '@' :: t ∧ IsHead decorator found r t := by
  obtain ⟨t, behind, rfl, suffix, head, rest, metadata⟩ := exists_of_decoratedHead? h
  refine ⟨t, rfl, ⟨fun m mem => ?_, ?_⟩, rest, metadata⟩
  · rw [Option.mem_def.1 mem] at suffix
    exact (List.sublist_append_left m behind).trans suffix.sublist
  · exact (suffix_of_classHead? head).trans ((List.suffix_append _ behind).trans suffix)

theorem isIn_of_decoratedHead? {decorator : Decorator} {found : Finding}
    (h : decoratedHead? decorator before s = some (found, r)) : found.IsIn s := by
  obtain ⟨t, rfl, head⟩ := exists_isHead h
  exact head.isIn.of_suffix (List.suffix_cons _ t)

theorem advances_decoratedHead? (decorator : Decorator) : Advances (decoratedHead? decorator) := by
  intro before s found r h
  obtain ⟨t, rfl, head⟩ := exists_isHead h
  obtain ⟨front, he⟩ := head.rest ▸ head.isIn.rest
  exact ⟨'@' :: front, List.cons_ne_nil _ _, by rw [List.cons_append, he]⟩

/-- The heads that a search finds are all heads with the decorator. -/
theorem exists_finds_findings (decorator : Decorator) (content : List Char) :
    ∃ finds, Finds (decoratedHead? decorator) [] content finds ∧
      findings decorator content = finds.map (·.2) :=
  exists_finds (advances_decoratedHead? decorator) content

end AngularAtlas.Source
